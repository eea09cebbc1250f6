/-
  Ssproxy.Terminal

  What a closed connection still does.  `closed` is set by a DISCONNECT of the
  peer and by `disconnect`; `process_in` does not look at it, so packets that
  follow are handled as before and what waits in `pending_out` is still flushed.

  `Touches` lists the packets that make a connection act.  Without them, and
  with nothing to flush, a closed connection stays as it is.
-/

import Ssproxy.Gate
import Ssproxy.Table

namespace Ssproxy

open Lib Wire Connection

-- ============================================================================
-- What is to stay
-- ============================================================================

/-- The keys of a connection and the state of the exchange for the next ones. -/
structure KeyState where
  kex : Option KexState
  pendingKeys : Option PendingKeys
  sessionId : Option Bytes
  lastH : Option Bytes
  strictKex : Bool
  sentKexinit : Bool
  sentNewkeys : Bool
  recvNewkeys : Bool
  firstKexDone : Bool
  kexBlocksApp : Bool
  sendCipher : DirectionKeys
  sendSeq : UInt32
  sendInstalls : Nat
  recvKind : CipherKind
  recvInstalls : Nat

/-- The buffers and counters of the write side. -/
structure Backlog where
  identOut : Option Bytes
  currentOut : Option Bytes
  currentIsIdent : Bool
  writeQ : List Bytes
  writeBytes : Nat
  writeSoft : Nat

namespace Connection

def keyState (c : Connection) : KeyState :=
  ⟨c.kex, c.pendingKeys, c.sessionId, c.lastH, c.strictKex, c.sentKexinit, c.sentNewkeys,
    c.recvNewkeys, c.firstKexDone, c.kexBlocksApp, c.sendCipher, c.sendSeq, c.sendInstalls,
    c.recvCipher.kind, c.recvInstalls⟩

def backlog (c : Connection) : Backlog :=
  ⟨c.identOut, c.currentOut, c.currentIsIdent, c.writeQ, c.writeBytes, c.writeSoft⟩

end Connection

/-- Observations that say nothing but what arrived. -/
def Obs.isInput : Obs → Bool
  | handled _ _ | passwordChecked _ _ _ => true
  | _ => false

/-- From `c` to `c'` packets may have arrived, and the connection did not act. -/
structure Still (c c' : Conn) : Prop where
  log : ∃ new, c'.log = c.log ++ new ∧ ∀ o ∈ new, o.isInput = true
  events : c'.now.events = c.now.events
  backlog : c'.now.backlog = c.now.backlog
  authed : c'.now.authed = c.now.authed
  keys : c'.now.keyState = c.now.keyState
  channels : c'.now.channels = c.now.channels

namespace Still

variable {c c' c'' : Conn}

theorem refl (c : Conn) : Still c c := ⟨⟨[], by simp⟩, rfl, rfl, rfl, rfl, rfl⟩

theorem trans (h : Still c c') (h' : Still c' c'') : Still c c'' := by
  obtain ⟨new, hl, hn⟩ := h.log
  obtain ⟨new', hl', hn'⟩ := h'.log
  refine ⟨⟨new ++ new', by rw [hl', hl, List.append_assoc], fun o ho => ?_⟩, h'.events.trans h.events,
    h'.backlog.trans h.backlog, h'.authed.trans h.authed, h'.keys.trans h.keys,
    h'.channels.trans h.channels⟩
  rcases List.mem_append.mp ho with ho | ho
  · exact hn o ho
  · exact hn' o ho

end Still

variable [CryptoLib] {p : Bytes} {c c' c1 : Conn}

theorem Receives.still (h : Receives p c c1) : Still c c1 := by
  obtain ⟨cipher, rest, total, hopen, -, rfl⟩ := h.opens
  have hreset : ∀ x : Connection, (x.resetRecv p).events = x.events ∧
      (x.resetRecv p).backlog = x.backlog ∧ (x.resetRecv p).authed = x.authed ∧
      (x.resetRecv p).keyState = x.keyState ∧ (x.resetRecv p).channels = x.channels := by
    intro x
    unfold resetRecv
    split <;> exact ⟨rfl, rfl, rfl, rfl, rfl⟩
  obtain ⟨hev, hback, hauth, hkeys, hch⟩ := hreset (c.now.received cipher rest total)
  refine ⟨⟨_, rfl, ?_⟩, hev, hback, hauth, hkeys.trans ?_, hch⟩
  · intro o ho
    rw [List.mem_singleton.mp ho]
    rfl
  · simp only [keyState, received, hopen.kind]

omit [CryptoLib] in
theorem Draws.still (h : Draws c c') : Still c c' := by
  cases h with
  | mk r => exact ⟨⟨[], by simp⟩, rfl, rfl, rfl, rfl, rfl⟩

-- ============================================================================
-- The packets that make a connection act
-- ============================================================================

/-- `p` makes the connection `c` act, also if it is closed: the message is
    complete, and there is what its handler needs. -/
inductive Touches (c : Connection) (p : Bytes) : Prop where
  | answered {owner : Option UInt32} {reply : Bytes} (h : Answers c p owner reply)
      (hfit : ¬c.TooLong reply)
  | disconnect (hm : IsMsg .disconnect p)
  -- key exchange
  | starts {theirs : KexInit} {q : Parser} (hm : IsMsg .kexinit p)
      (hp : KexInit.parseBody p (.new p) = .ok theirs q) (hk : c.kex = none)
  | agreed {theirs : KexInit} {q : Parser} {k : KexState} {c2s s2c : String}
      (hm : IsMsg .kexinit p) (hp : KexInit.parseBody p (.new p) = .ok theirs q)
      (hk : c.kex = some k) (hn : Negotiates theirs c2s s2c)
      (hnew : c.role = .client ∨ (c.recorded k theirs c2s s2c).keyState ≠ c.keyState)
  | ecdhInit {qC : Block 32} {k : KexState} {theirs : KexInit} (hrole : c.role = .server)
      (hm : Msg.ecdhInit qC <+: p) (hk : c.kex = some k) (ht : k.theirs = some theirs)
      (hz : isZero (CryptoLib.x25519 (c.rng.next 32) qC).val = false)
  | ecdhReply {ks sig : Bytes} {qS : Block 32} {k : KexState} (hrole : c.role = .client)
      (hm : Msg.ecdhReply ks qS sig <+: p) (hk : c.kex = some k) (hsec : k.secret.isSome = true)
  | newkeys (hm : IsMsg .newkeys p) (hpk : c.pendingKeys.isSome = true)
  -- authentication
  | userauthSuccess (hm : IsMsg .userauthSuccess p)
  | login {cfg : ServerConfig} {user password : String} (hrole : c.role = .server)
      (hcfg : c.server = some cfg) (hm : Msg.passwordRequest user password <+: p)
      (hok : cfg.checkPassword user password = true)
  | rejected {cfg : ServerConfig} {user password : String} (hrole : c.role = .server)
      (hcfg : c.server = some cfg) (hm : Msg.passwordRequest user password <+: p)
      (hbad : cfg.checkPassword user password = false) (hlt : c.authFails + 1 < cfg.maxAuthFails)
  | refused {cfg : ServerConfig} (hrole : c.role = .server) (hcfg : c.server = some cfg)
      (ho : Unchecked p) (hlt : c.authFails < cfg.maxAuthFails)
  -- channels
  | openSession {remote w m : UInt32} (ha : c.authed = true) (hroom : c.channels.hasRoom)
      (hm : MsgType.channelOpen.code ::
        (putStr "session" ++ putU32 remote ++ putU32 w ++ putU32 m) <+: p)
  | openDirect {remote w m port oport : UInt32} {host orig : String} (ha : c.authed = true)
      (hroom : c.channels.hasRoom)
      (hm : MsgType.channelOpen.code :: (putStr "direct-tcpip" ++ putU32 remote
        ++ putU32 w ++ putU32 m ++ putStr host ++ putU32 port ++ putStr orig ++ putU32 oport) <+: p)
  | confirmed {id remote w m : UInt32} {ch : Channel}
      (hm : MsgType.channelOpenConfirmation.code ::
        (putU32 id ++ putU32 remote ++ putU32 w ++ putU32 m) <+: p)
      (hch : c.channels.get? id = some ch)
  | failed {id reason : UInt32}
      (hm : MsgType.channelOpenFailure.code :: (putU32 id ++ putU32 reason) <+: p)
  | adjusted {id add : UInt32} {ch : Channel} (hm : Msg.windowAdjust id add <+: p)
      (hch : c.channels.get? id = some ch)
      (hadd : saturatingAdd32 ch.sendWindow add ≠ ch.sendWindow)
  | data {id : UInt32} {data : Bytes} {ch : Channel}
      (hm : Msg.channelData id data <+: p
        ∨ ∃ code, MsgType.channelExtendedData.code :: (putU32 id ++ putU32 code ++ putBytes data)
            <+: p)
      (hch : c.channels.get? id = some ch) (hw : UInt32.ofNat data.length ≤ ch.recvWindow)
  | eof {id : UInt32} (hm : Msg.channelEof id <+: p)
  | close {id : UInt32} {ch : Channel} (hm : Msg.channelClose id <+: p)
      (hch : c.channels.get? id = some ch)

/-- What is answered in `c'` is answered in `c`, though the text may differ. -/
theorem Answers.touches {c c' : Connection} {owner : Option UInt32} {reply : Bytes}
    (h : Answers c' p owner reply) (hfit : ¬c'.TooLong reply) (hctl : c'.control = c.control)
    (hch : c'.channels = c.channels) : Touches c p := by
  have hrole : c'.role = c.role := congrArg (·.conn.role) hctl
  have hfits : ∀ {reply' : Bytes}, reply.length = reply'.length → ¬c.TooLong reply' :=
    fun hlen hlong => hfit ((tooLong_congr (congrArg (·.sendKind) hctl) hlen).mpr hlong)
  cases h with
  | service hr hm hn => exact .answered (.service (hrole ▸ hr) hm hn) (hfits rfl)
  | credentials hr hc hm =>
    have hclient := (congrArg (·.conn.client) hctl).symm.trans hc
    exact .answered (.credentials (hrole ▸ hr) hclient hm) (hfits rfl)
  | «global» hm hw hr => exact .answered (.global hm hw hr) (hfits rfl)
  | unknownType ha hm ht hrest =>
    have hauthed := (congrArg (·.conn.authed) hctl).symm.trans ha
    exact .answered (.unknownType hauthed hm ht hrest) (hfits rfl)
  | request hm hw hget hr ht =>
    exact .answered (.request hm hw (hch ▸ hget) hr ht) (hfits rfl)
  | ping hm => exact .answered (.ping hm) (hfits rfl)
  | unknown hm ht => exact .answered (.unknown hm ht) (hfits rfl)

/-- Refusing a login at the limit does nothing once the connection is closed. -/
theorem Denies.still {cfg : ServerConfig} (h : Denies cfg c c') (hclosed : c.now.closed = true)
    (hge : cfg.maxAuthFails ≤ c.now.authFails) : c' = c := by
  cases h with
  | soft hlt hq => exact absurd hlt (UInt32.not_lt.mpr hge)
  | hard hge hh =>
    cases hh with
    | again hc => rfl
    | first hc hs => exact absurd (hc.symm.trans hclosed) Bool.false_ne_true

omit [CryptoLib] in
theorem Connection.keyState_recorded {x y : Connection} (hrole : x.role = y.role)
    (hkeys : x.keyState = y.keyState) (k : KexState) (theirs : KexInit) (c2s s2c : String) :
    (x.recorded k theirs c2s s2c).keyState = (y.recorded k theirs c2s s2c).keyState := by
  have hrecorded : ∀ z : Connection, (z.recorded k theirs c2s s2c).keyState =
      { z.keyState with
        kex := (z.recorded k theirs c2s s2c).kex
        strictKex := z.keyState.strictKex || listHas theirs.kex z.strictName } := fun _ => rfl
  have hname : x.strictName = y.strictName := by rw [strictName, strictName, hrole]
  rw [hrecorded, hrecorded, hkeys, hname]
  rfl

theorem Handles.still (h : Handles p c c') (hclosed : c.now.closed = true)
    (hno : ¬Touches c.now p) : Still c c' := by
  have hrole : ∀ {c1 : Conn} {r : Role}, Receives p c c1 → c1.now.role = r → c.now.role = r :=
    fun hr h => (congrArg (·.conn.role) hr.control).symm.trans h
  have hserver : ∀ {c1 : Conn} {cfg : ServerConfig}, Receives p c c1 →
      c1.now.server = some cfg → c.now.server = some cfg :=
    fun hr h => (congrArg (·.conn.server) hr.control).symm.trans h
  have hkex : ∀ {c1 : Conn} {k : KexState}, Receives p c c1 →
      c1.now.kex = some k → c.now.kex = some k :=
    fun hr h => (congrArg (·.conn.kex) hr.control).symm.trans h
  have hidle : ∀ {c1 : Conn}, Receives p c c1 → c1.now.kex = none → c.now.kex = none :=
    fun hr h => (congrArg (·.conn.kex) hr.control).symm.trans h
  have hpend : ∀ {c1 : Conn} {pk : PendingKeys}, Receives p c c1 →
      c1.now.pendingKeys = some pk → c.now.pendingKeys.isSome = true := by
    intro c1 pk hr h
    have hsame : c1.now.pendingKeys = c.now.pendingKeys :=
      congrArg (·.conn.pendingKeys) hr.control
    rw [← hsame, h]
    rfl
  have hauthed : ∀ {c1 : Conn}, Receives p c c1 → c1.now.authed = true → c.now.authed = true :=
    fun hr h => (congrArg (·.conn.authed) hr.control).symm.trans h
  cases h with
  | skip hr h => exact hr.still
  | answer hr h hq => exact absurd (h.touches hq.fits hr.control hr.channels) hno
  | @kexinitServer c1 c2 q theirs k c2s s2c hr hm hro hp hj hk hn =>
    cases hj with
    | started hnone hs => exact absurd (.starts hm hp (hidle hr hnone)) hno
    | running hsome =>
      have hsame : (c.now.recorded k theirs c2s s2c).keyState = c.now.keyState :=
        Classical.not_not.mp fun hne => hno (.agreed hm hp (hkex hr hk) hn (.inr hne))
      have hkeys := keyState_recorded (congrArg (·.conn.role) hr.control) hr.still.keys
        k theirs c2s s2c
      refine hr.still.trans ⟨⟨[], by simp⟩, rfl, rfl, rfl, ?_, rfl⟩
      rw [hkeys, hsame, hr.still.keys]
  | kexinitClient hr hm hro hp hj hk hn hpub hq =>
    cases hj with
    | started hnone hs => exact absurd (.starts hm hp (hidle hr hnone)) hno
    | running hsome =>
      exact absurd (.agreed hm hp (hkex hr hk) hn (.inl (hrole hr hro))) hno
  | ecdhInit hr hro hm hcfg hx hz hq hs =>
    rw [hr.rng] at hz
    exact absurd (.ecdhInit (hrole hr hro) hm (hkex hr hx.kex) hx.theirs hz) hno
  | ecdhReply hr hro hm hpub hsec hx hks hsig hz hs =>
    exact absurd (.ecdhReply (hrole hr hro) hm (hkex hr hx.kex) (by rw [hsec]; rfl)) hno
  | newkeysFirst hr hm hpk hf hg => exact absurd (.newkeys hm (hpend hr hpk)) hno
  | newkeysAgain hr hm hpk hf => exact absurd (.newkeys hm (hpend hr hpk)) hno
  | userauthSuccess hr hm => exact absurd (.userauthSuccess hm) hno
  | authAccept hr hro hcfg hm hok hq =>
    exact absurd (.login (hrole hr hro) (hserver hr hcfg) hm hok) hno
  | @authReject c1 c' cfg user password hr hro hcfg hm hbad hd =>
    have hfails : c1.now.authFails = c.now.authFails := congrArg (·.conn.authFails) hr.control
    have hge : cfg.maxAuthFails ≤ c1.now.authFails + 1 := by
      rw [hfails]
      exact UInt32.not_lt.mp fun hlt =>
        hno (.rejected (hrole hr hro) (hserver hr hcfg) hm hbad hlt)
    have hclosed1 : c1.now.closed = true := (congrArg (·.conn.closed) hr.control).trans hclosed
    rw [hd.still hclosed1 hge]
    refine hr.still.trans ⟨⟨[_], rfl, ?_⟩, rfl, rfl, rfl, rfl, rfl⟩
    intro o ho
    rw [List.mem_singleton.mp ho]
    rfl
  | @authOther c1 c' cfg hr hro hcfg hm hd ho =>
    have hfails : c1.now.authFails = c.now.authFails := congrArg (·.conn.authFails) hr.control
    have hge : cfg.maxAuthFails ≤ c1.now.authFails := by
      rw [hfails]
      exact UInt32.not_lt.mp fun hlt => hno (.refused (hrole hr hro) (hserver hr hcfg) ho hlt)
    have hclosed1 : c1.now.closed = true := (congrArg (·.conn.closed) hr.control).trans hclosed
    rw [hd.still hclosed1 hge]
    exact hr.still
  | disconnect hr hm => exact absurd (.disconnect hm) hno
  | openSession hr hm hauth ha =>
    exact absurd (.openSession (hauthed hr hauth) (hr.channels ▸ ha.hasRoom) hm) hno
  | openDirect hr hm hauth ha hrest =>
    obtain ⟨orig, oport, hm⟩ := hrest
    exact absurd (.openDirect (hauthed hr hauth) (hr.channels ▸ ha.hasRoom) hm) hno
  | openConfirm hr hm hch => exact absurd (.confirmed hm (hr.channels ▸ hch)) hno
  | openFail hr hm => exact absurd (.failed hm) hno
  | @windowAdjust c1 id add ch hr hm hch =>
    have hadd : saturatingAdd32 ch.sendWindow add = ch.sendWindow :=
      Classical.not_not.mp fun hne => hno (.adjusted hm (hr.channels ▸ hch) hne)
    rw [hadd]
    exact hr.still.trans
      ⟨⟨[], (List.append_nil _).symm, by simp⟩, rfl, rfl, rfl, rfl, ChannelTable.set_get? hch⟩
  | deliver hr hm hch hw => exact absurd (.data hm (hr.channels ▸ hch) hw) hno
  | peerEof hr hm hch => exact absurd (.eof hm) hno
  | peerEofUnknown hr hm hch => exact absurd (.eof hm) hno
  | peerClose hr hm hch => exact absurd (.close hm (hr.channels ▸ hch)) hno

omit [CryptoLib] in
theorem Still.flushable {ch : Channel} (h : Still c c') (hf : Flushable c'.now ch) :
    Flushable c.now ch := by
  obtain ⟨r, front, queue, hcan, hp, hne⟩ := hf
  have hgate : c'.now.kexBlocksApp = c.now.kexBlocksApp := congrArg (·.kexBlocksApp) h.keys
  have hsoft : c'.now.writeSoft = c.now.writeSoft := congrArg (·.writeSoft) h.backlog
  have hqueued : c'.now.queuedWriteBytes = c.now.queuedWriteBytes := by
    have hident : c'.now.identOut = c.now.identOut := congrArg (·.identOut) h.backlog
    have hcur : c'.now.currentOut = c.now.currentOut := congrArg (·.currentOut) h.backlog
    have his : c'.now.currentIsIdent = c.now.currentIsIdent := congrArg (·.currentIsIdent) h.backlog
    have hbytes : c'.now.writeBytes = c.now.writeBytes := congrArg (·.writeBytes) h.backlog
    simp only [queuedWriteBytes, hident, hcur, his, hbytes]
  refine ⟨r, front, queue, ⟨hgate ▸ hcan.gate, hcan.confirmed, hcan.live, hcan.remote, hcan.window,
    ?_⟩, hp, hne⟩
  rw [← hqueued, ← hsoft]
  exact hcan.room

/-- `flush_pending` has nothing to send, on any channel. -/
def Flushed (c : Conn) : Prop := ∀ id ch, c.now.channels.get? id = some ch → ¬Flushable c.now ch

omit [CryptoLib] in
theorem Still.flushed (h : Still c c') (hf : Flushed c) : Flushed c' :=
  fun id ch hch hcan => hf id ch (h.channels ▸ hch) (h.flushable hcan)

theorem Handled.still (h : Handled p c c') (hclosed : c.now.closed = true) (hf : Flushed c)
    (hno : ¬Touches c.now p) : Still c c' := by
  cases h with
  | plain h => exact h.still hclosed hno
  | trailing h ht hs hidle =>
    have hstill := h.still hclosed hno
    -- of the messages that more follows only a WINDOW_ADJUST is left
    have hadjust : IsMsg .channelWindowAdjust p := by
      cases ht with
      | confirmed hm hch => exact absurd (.confirmed hm hch) hno
      | adjusted hm hch => exact IsMsg.of_prefix hm
      | closed hm hch => exact absurd (.close hm hch) hno
      | newkeys hm hpk => exact absurd (.newkeys hm hpk) hno
    rw [hidle hadjust (hstill.flushed hf)]
    exact hstill

-- ============================================================================
-- process_in on a closed connection
-- ============================================================================

/-- If none of the packets handled from `c` to `c'` made the connection act, it
    did not act. -/
def Reacts (c c' : Conn) : Prop :=
  ∃ new, c'.log = c.log ++ new ∧
    ((∀ b p, Obs.handled b p ∈ new → ¬Touches b p) → Still c c')

namespace Reacts

theorem of_still (h : Still c c') : Reacts c c' := by
  obtain ⟨new, hl, -⟩ := h.log
  exact ⟨new, hl, fun _ => h⟩

theorem trans {c'' : Conn} (h : Reacts c c') (h' : Reacts c' c'') : Reacts c c'' := by
  obtain ⟨new, hl, hs⟩ := h
  obtain ⟨new', hl', hs'⟩ := h'
  refine ⟨new ++ new', by rw [hl', hl, List.append_assoc], fun hno => ?_⟩
  exact (hs fun b p hp => hno b p (List.mem_append_left _ hp)).trans
    (hs' fun b p hp => hno b p (List.mem_append_right _ hp))

/-- After a step on which nothing is said unless the connection stood still. -/
theorem step {c'' : Conn} (h : Reacts c c') (hl : c'.log <+: c''.log)
    (hs : Still c c' → Reacts c' c'') : Reacts c c'' := by
  by_cases hstill : Still c c'
  · exact h.trans (hs hstill)
  obtain ⟨new, hnew, himp⟩ := h
  obtain ⟨more, hmore⟩ := hl
  refine ⟨new ++ more, by rw [← hmore, hnew, List.append_assoc], fun hno => ?_⟩
  exact absurd (himp fun b p hp => hno b p (List.mem_append_left _ hp)) hstill

end Reacts

/-- What a packet does, in the terms of `Reacts`. -/
theorem Receives.reacts (hr : Receives p c c1) (hlog : c1.log <+: c'.log)
    (hs : ¬Touches c.now p → Still c c') : Reacts c c' := by
  obtain ⟨more, hl⟩ := hlog
  refine ⟨.handled c.now p :: more, ?_, fun hno => hs (hno c.now p List.mem_cons_self)⟩
  rw [← hl, hr.log, List.append_assoc]
  rfl

theorem Handled.reacts (h : Handled p c c') (hclosed : c.now.closed = true) (hf : Flushed c) :
    Reacts c c' := by
  obtain ⟨c1, hh, hs⟩ := h.settles
  obtain ⟨more, hl⟩ := hh.log.trans hs.trail.extends.log.isPrefix
  refine ⟨.handled c.now p :: more, ?_, fun hno => ?_⟩
  · rw [← hl, List.append_assoc]
    rfl
  · exact h.still hclosed hf (hno c.now p List.mem_cons_self)

/-- The secret of a client's exchange was taken by an ECDH_REPLY. -/
theorem Receives.touches {k : KexState} (hr : Receives p c c1)
    (hm : ∃ ks qS sig, Msg.ecdhReply ks qS sig <+: p) (hrole : c1.now.role = .client)
    (hk : c1.now.kex = some k) (hsec : k.secret.isSome = true) : Touches c.now p := by
  obtain ⟨ks, qS, sig, hm⟩ := hm
  exact .ecdhReply ((congrArg (·.conn.role) hr.control).symm.trans hrole) hm
    ((congrArg (·.conn.kex) hr.control).symm.trans hk) hsec

theorem Faults.reacts (h : Faults c c') : Reacts c c' := by
  cases h with
  | reject hr hf => exact .of_still hr.still
  | spoil hr hm hrole hk hsec hf =>
    exact hr.reacts (List.prefix_refl _) fun hno => absurd (hr.touches hm hrole hk hsec) hno
  | drop hkind =>
    refine .of_still ⟨⟨[], by simp⟩, rfl, rfl, rfl, ?_, rfl⟩
    simp only [keyState, hkind]
  | identBad hid => exact .of_still ⟨⟨[], by simp⟩, rfl, rfl, rfl, rfl, rfl⟩

theorem Failed.reacts (h : Failed c c') : Reacts c c' := by
  cases h with
  | plain hr hd => exact .of_still (hr.still.trans hd.still)
  | spoiled hr hm hrole hk hsec ks =>
    exact hr.reacts (List.prefix_refl _) fun hno => absurd (hr.touches hm hrole hk hsec) hno
  | kexinit hr hm hp hj =>
    cases hj with
    | running hk => exact .of_still hr.still
    | started hk hs =>
      refine hr.reacts hs.extends.log.isPrefix fun hno => absurd ?_ hno
      exact .starts hm hp ((congrArg (·.conn.kex) hr.control).symm.trans hk)

theorem Connection.Misses.reacts (h : Misses c c') : Reacts c c' := by
  cases h with
  | dropped h => exact h.reacts
  | refused hr he hf => exact hf.reacts

namespace Connection

theorem maybeRekey_closed (hclosed : c.now.closed = true) : maybeRekey c = .ok () c := by
  unfold maybeRekey
  rw [Proc.bind_of_ok (Traced.read_apply c), Proc.ite_apply, if_pos]
  · rfl
  · simp [hclosed]

theorem processPackets_reacts (h : Ready c) (hclosed : c.now.closed = true) (hf : Flushed c) :
    (processPackets c).Sat (fun _ c' => Reacts c c') (fun _ c' => Reacts c c') := by
  have hround : ∀ c1, (Ready c1 ∧ c1.now.closed = true ∧ Reacts c c1) →
      (tryOnePacket c1).Sat (fun _ c2 => Ready c2 ∧ c2.now.closed = true ∧ Reacts c c2)
        (fun _ c2 => Reacts c c2) := by
    rintro c1 ⟨hready, hclosed, hr⟩
    refine (tryOnePacket_sat c1 hready.wellFormed hready.ident).mono ?_ ?_
    · rintro again c2 (⟨-, rfl⟩ | ⟨-, p, hp⟩)
      · exact ⟨hready, hclosed, hr⟩
      · refine ⟨hready.handled hp, ?_, hr.step (Turns.log hp.turns) fun hs => ?_⟩
        · exact (Moves.rises (calms_moves (Turns.calms hp.turns))).closed hclosed
        · exact hp.reacts hclosed (hs.flushed hf)
    · rintro e c2 (rfl | hm)
      · exact hr
      · exact hr.trans hm.reacts
  unfold processPackets
  rw [Proc.bind_of_ok (Traced.read_apply c)]
  refine (Proc.sat_loop hround _ c ⟨h, hclosed, .of_still (.refl c)⟩).bind ?_
  rintro _ c1 ⟨-, hclosed1, hr⟩
  rw [Proc.bind_of_ok (maybeRekey_closed hclosed1)]
  -- what the flush finds is what was there before the packets
  by_cases hstill : Still c c1
  · rw [flushPendingAll_idle (hstill.flushed hf)]
    exact hr
  · refine (flushPendingAll_returns c1).mono (fun _ c2 hs => ?_) fun _ _ h => h.elim
    exact hr.step (Steps.trail hs).extends.log.isPrefix fun h => absurd h hstill

/-- Before the ident line of the peer, our KEXINIT is out. -/
def Early (c : Connection) : Prop := c.identInDone = false → c.sentKexinit = true

theorem processIn_reacts (hwf : WellFormed c) (hearly : Early c.now) (hclosed : c.now.closed = true)
    (hf : Flushed c) : (processIn c).Sat (fun _ c' => Reacts c c') (fun _ c' => Reacts c c') := by
  unfold processIn
  rw [Proc.bind_of_ok (Traced.read_apply c), Proc.ite_apply]
  split
  · rename_i hid
    have hid : c.now.identInDone = false := by simpa using hid
    have hframe := tryIdent_frame c
    have hquiet := tryIdent_sat c hid
    have hstill : ∀ {c' : Conn}, (∃ acc buf peer done, c' = ⟨{ c.now with
        identAcc := acc, readBuf := buf, identPeer := peer, identInDone := done }, c.log⟩) →
        Still c c' := by
      rintro c' ⟨acc, buf, peer, done, rfl⟩
      exact ⟨⟨[], by simp⟩, rfl, rfl, rfl, rfl, rfl⟩
    rw [Proc.bind_apply]
    cases hrun : tryIdent c with
    | panic => exact absurd hrun hframe.ne_panic
    | err e c1 => exact .of_still (hstill (hframe.of_err hrun))
    | ok a c1 =>
      have hs := hstill (hframe.of_ok hrun)
      have hwf1 := (hquiet.of_ok hrun).wellFormed hwf
      obtain ⟨acc, buf, peer, done, hc1⟩ := hframe.of_ok hrun
      rw [Outcome.bind_ok, Proc.bind_of_ok (Traced.read_apply c1), Proc.ite_apply]
      split
      · rename_i hid1
        have hsent : c1.now.sentKexinit = true := by
          rw [hc1]
          exact hearly hid
        have hclosed1 : c1.now.closed = true := by
          rw [hc1]
          exact hclosed
        have hstart : maybeStartKex c1 = .ok () c1 := by
          unfold maybeStartKex
          rw [Proc.bind_of_ok (Traced.read_apply c1), Proc.ite_apply, if_pos hsent]
          rfl
        rw [Proc.bind_of_ok hstart]
        refine (processPackets_reacts ⟨hwf1, hid1⟩ hclosed1 (hs.flushed hf)).mono ?_ ?_
        · exact fun _ _ hr => (Reacts.of_still hs).trans hr
        · exact fun _ _ hr => (Reacts.of_still hs).trans hr
      · exact .of_still hs
  · rename_i hid
    exact processPackets_reacts ⟨hwf, by simpa using hid⟩ hclosed hf

end Connection

-- ============================================================================
-- The states a connection visits
-- ============================================================================

theorem Turn.identDone (h : Turn c c') (hid : c.now.identInDone = true) :
    c'.now.identInDone = true := by
  cases h with
  | quiet h =>
    cases h with
    | step h => exact (congrArg Ident.done h.extends.ident).trans hid
    | handle h => exact (congrArg Ident.done h.ident).trans hid
    | identWait hno hnl => exact hid
    | identDone hno hs => rfl
  | packet h hs =>
    exact (congrArg Ident.done hs.trail.extends.ident).trans
      ((congrArg Ident.done h.ident).trans hid)

theorem Turns.identDone (h : Turns c c') (hid : c.now.identInDone = true) :
    c'.now.identInDone = true := by
  induction h with
  | refl => exact hid
  | tail _ hlast ih => exact hlast.identDone ih

theorem Faults.ident (h : Faults c c') : c'.now.identInDone = c.now.identInDone := by
  cases h with
  | reject h => exact congrArg Ident.done h.ident
  | spoil h hm hrole hk hsec hf => exact congrArg Ident.done h.ident
  | drop hkind => rfl
  | identBad hid => rfl

theorem Breaks.identDone (h : Breaks c c') (hid : c.now.identInDone = true) :
    c'.now.identInDone = true := by
  cases h with
  | mk ht hf hs =>
    have hid1 := Turns.identDone ht hid
    rcases hf with rfl | hf
    · exact Turns.identDone (Steps.turns hs) hid1
    · exact Turns.identDone (Steps.turns hs) (hf.ident.trans hid1)

theorem Trail.early {P : Cause → Prop} (h : Trail P c c') (he : Early c.now) : Early c'.now := by
  induction h with
  | refl => exact he
  | tail _ hlast ih =>
    obtain ⟨k, -, hs⟩ := hlast
    intro hid
    have hsame := congrArg Ident.done hs.extends.ident
    have hsent := ih (hsame.symm.trans hid)
    rcases hs.control with hc | ⟨-, hstart⟩ | ⟨reason, msg, hh⟩
    · exact (congrArg (·.conn.sentKexinit) hc).trans hsent
    · cases hstart with
      | mk hq => rfl
    · cases hh with
      | again hc => exact hsent
      | first hc hsend =>
        have h := congrArg (·.conn.sentKexinit) hsend.control
        exact h.trans hsent

namespace Connection

theorem processIn_early (hwf : WellFormed c) (he : Early c.now) :
    (processIn c).Sat (fun _ c' => Early c'.now) (fun _ c' => Early c'.now) := by
  have hdone : ∀ {x : Connection}, x.identInDone = true → Early x :=
    fun h hid => absurd (hid.symm.trans h) Bool.false_ne_true
  have hsat := processIn_sat c hwf
  cases hid : c.now.identInDone with
  | true =>
    exact hsat.mono (fun _ _ h => hdone (Turns.identDone h hid)) fun _ _ h => hdone (h.identDone hid)
  | false =>
    have hframe := tryIdent_frame c
    unfold processIn
    rw [Proc.bind_of_ok (Traced.read_apply c), Proc.ite_apply, if_pos (by rw [hid]; rfl),
      Proc.bind_apply]
    cases hrun : tryIdent c with
    | panic => exact absurd hrun hframe.ne_panic
    | err e c1 =>
      obtain ⟨acc, buf, peer, done, rfl⟩ := hframe.of_err hrun
      exact fun _ => he hid
    | ok a c1 =>
      have hwf1 := ((tryIdent_sat c hid).of_ok hrun).wellFormed hwf
      obtain ⟨acc, buf, peer, done, hc1⟩ := hframe.of_ok hrun
      rw [Outcome.bind_ok, Proc.bind_of_ok (Traced.read_apply c1), Proc.ite_apply]
      split
      · rename_i hid1
        refine ((maybeStartKex_follows c1 hwf1).mono (R := fun _ c2 => Ready c2) ?_ ?_).bind ?_
        · intro _ c2 hs
          exact ⟨(Steps.trail hs).wellFormed hwf1, Turns.identDone (Steps.turns hs) hid1⟩
        · exact fun _ _ hs => hdone (Turns.identDone (Steps.turns hs) hid1)
        · intro _ c2 hready
          exact (processPackets_sat c2 hready).mono
            (fun _ _ h => hdone (Turns.identDone h hready.ident))
            fun _ _ h => hdone (h.identDone hready.ident)
      · rw [hc1]
        exact fun _ => he hid

end Connection

namespace Setup

theorem run_early {setup : Setup} {rng : Rng} {calls : List Call} {c : Conn}
    (hrun : setup.run rng calls = .ok () c) : Early c.now := by
  refine run_calls (I := fun c => Early c.now) (G := fun _ => True) ?_ ?_ hrun fun _ _ => trivial
  · intro c0 h0 _
    cases h0 with
    | mk hq => rfl
  · intro pre call post c1 c2 _ _ hwf he hend _
    by_cases hin : call = .processIn
    · subst hin
      have hsat := processIn_early hwf he
      rcases Outcome.state?_eq_some hend with ⟨a, hok⟩ | ⟨e, herr⟩
      · exact hsat.of_ok hok
      · exact hsat.of_err herr
    by_cases hrecv : ∃ bytes, call = .recv bytes
    · obtain ⟨bytes, rfl⟩ := hrecv
      cases hend
      exact he
    have hsat := call.run_called c1 hwf hin fun bytes hb => hrecv ⟨bytes, hb⟩
    rcases Outcome.state?_eq_some hend with ⟨a, hok⟩ | ⟨e, herr⟩
    · exact (hsat.of_ok hok).trail.early he
    · exact (hsat.of_err herr).trail.early he

/-- The states of a connection between two calls and, inside `process_in`,
    between two packets. -/
inductive Visits (setup : Setup) : Conn → Prop where
  | run {rng : Rng} {calls : List Call} {c : Conn} (h : setup.run rng calls = .ok () c) :
      Visits setup c
  | ident {c c' : Conn} (h : Visits setup c) (hid : c.now.identInDone = false)
      (hrun : tryIdent c = .ok () c') : Visits setup c'
  | packet {c c' : Conn} (h : Visits setup c) (hid : c.now.identInDone = true)
      (hrun : tryOnePacket c = .ok true c') : Visits setup c'

theorem Visits.invariant {setup : Setup} (h : setup.Visits c) : WellFormed c ∧ Early c.now := by
  induction h with
  | run h => exact ⟨(Reaches.of_run h).wellFormed, run_early h⟩
  | @ident c c' h hid hrun ih =>
    refine ⟨((tryIdent_sat c hid).of_ok hrun).wellFormed ih.1, ?_⟩
    obtain ⟨acc, buf, peer, done, rfl⟩ := (tryIdent_frame c).of_ok hrun
    exact fun _ => ih.2 hid
  | @packet c c' h hid hrun ih =>
    rcases (tryOnePacket_sat c ih.1 hid).of_ok hrun with ⟨hf, -⟩ | ⟨-, p, hp⟩
    · cases hf
    · have hready := Ready.handled ⟨ih.1, hid⟩ hp
      exact ⟨hready.wellFormed, fun hid' => absurd (hid'.symm.trans hready.ident) Bool.false_ne_true⟩

/-- Bytes arrive and `process_in` is called. -/
def arrival (bytes : Bytes) : ConnM Unit := do
  (Call.recv bytes).run
  Call.processIn.run

/-- A closed connection whose channels have nothing to flush, fed with packets
    that do not make it act, does not act. -/
theorem closed_terminal {setup : Setup} {bytes : Bytes} (hvisit : setup.Visits c)
    (hclosed : c.now.closed = true)
    (hend : (arrival bytes c).state? = some c') (hflush : Flushed c)
    (hno : ∀ before p, Obs.handled before p ∈ c'.log.drop c.log.length → ¬Touches before p) :
    Still c c' := by
  obtain ⟨hwf, hearly⟩ := hvisit.invariant
  generalize hc1 : (⟨{ c.now with readBuf := c.now.readBuf ++ bytes }, c.log⟩ : Conn) = c1
  have hfed : Still c c1 := by
    rw [← hc1]
    exact ⟨⟨[], by simp⟩, rfl, rfl, rfl, rfl, rfl⟩
  have hreacts : Reacts c1 c' := by
    have hsat : (processIn c1).Sat (fun _ c' => Reacts c1 c') (fun _ c' => Reacts c1 c') := by
      refine processIn_reacts ?_ ?_ ?_ (hfed.flushed hflush)
      · rw [← hc1]
        exact ⟨hwf.kex, hwf.table⟩
      · rw [← hc1]
        exact hearly
      · rw [← hc1]
        exact hclosed
    have hend : (processIn c1).state? = some c' := by
      rw [← hc1]
      exact hend
    rcases Outcome.state?_eq_some hend with ⟨a, hok⟩ | ⟨e, herr⟩
    · exact hsat.of_ok hok
    · exact hsat.of_err herr
  obtain ⟨new, hlog, hstill⟩ := (Reacts.of_still hfed).trans hreacts
  refine hstill fun b p hp => hno b p ?_
  rw [hlog, List.drop_left]
  exact hp

/-- IGNORE does not make a connection act. -/
theorem ignore_not_touches {x : Connection} (h : IsMsg .ignore p) : ¬Touches x p := by
  have hother : ∀ {m : MsgType}, m ≠ .ignore → ¬IsMsg m p := fun hne hm => hne (hm.unique h)
  intro ht
  cases ht with
  | answered ha hfit =>
    cases ha with
    | service hr hm hn => exact hother (by decide) (IsMsg.of_prefix hm)
    | credentials hr hc hm => exact hother (by decide) hm
    | «global» hm hw hr => exact hother (by decide) hm
    | unknownType ha hm ht hrest => exact hother (by decide) (IsMsg.of_prefix hm)
    | request hm hw hch hr ht => exact hother (by decide) (IsMsg.of_prefix hm)
    | ping hm => exact hother (by decide) hm
    | unknown hm ht =>
      cases Option.some.inj (hm.symm.trans h)
      cases ht
  | disconnect hm => exact hother (by decide) hm
  | starts hm hp hk => exact hother (by decide) hm
  | agreed hm hp hk hn hnew => exact hother (by decide) hm
  | ecdhInit hrole hm hk ht hz => exact hother (by decide) (IsMsg.of_prefix hm)
  | ecdhReply hrole hm hk hsec => exact hother (by decide) (IsMsg.of_prefix hm)
  | newkeys hm hpk => exact hother (by decide) hm
  | userauthSuccess hm => exact hother (by decide) hm
  | login hrole hcfg hm hok => exact hother (by decide) (IsMsg.of_prefix hm)
  | rejected hrole hcfg hm hbad hlt => exact hother (by decide) (IsMsg.of_prefix hm)
  | refused hrole hcfg ho hlt => exact hother (by decide) ho.isMsg
  | openSession ha hroom hm => exact hother (by decide) (IsMsg.of_prefix hm)
  | openDirect ha hroom hm => exact hother (by decide) (IsMsg.of_prefix hm)
  | confirmed hm hch => exact hother (by decide) (IsMsg.of_prefix hm)
  | failed hm => exact hother (by decide) (IsMsg.of_prefix hm)
  | adjusted hm hch hadd => exact hother (by decide) (IsMsg.of_prefix hm)
  | data hm hch hw =>
    rcases hm with hm | ⟨code, hm⟩
    · exact hother (by decide) (IsMsg.of_prefix hm)
    · exact hother (by decide) (IsMsg.of_prefix hm)
  | eof hm => exact hother (by decide) (IsMsg.of_prefix hm)
  | close hm hch => exact hother (by decide) (IsMsg.of_prefix hm)

/-- A peer that disconnects. -/
def peerLeaves : List Call :=
  [.recv (Toy.identLine ++ Toy.clearPacket (Msg.disconnect 11 "bye")), .processIn]

/-- The handled packets of `l` are all IGNORE. -/
def onlyIgnore (l : List Obs) : Bool :=
  (handledPackets l).all fun x => decide (IsMsg .ignore x.2)

omit [CryptoLib] in
/-- An IGNORE after the DISCONNECT. -/
theorem closed_terminal_ignore : ∃ c c',
    @Setup.run Toy.lib (.server Toy.server) Toy.rng peerLeaves = .ok () c ∧
      c.now.closed = true ∧
      (@arrival Toy.lib (Toy.clearPacket [MsgType.ignore.code]) c).state? = some c' ∧
      Still c c' := by
  have hpass : (@Setup.run Toy.lib (.server Toy.server) Toy.rng peerLeaves).passes (fun c =>
      c.now.closed && c.now.channels.slots.isEmpty &&
      (@arrival Toy.lib (Toy.clearPacket [MsgType.ignore.code]) c).state?.any
        fun c' => onlyIgnore (c'.log.drop c.log.length)) = true := by
    decide +kernel
  obtain ⟨_, c, hrun, hc⟩ := Outcome.exists_of_passes hpass
  rw [Bool.and_eq_true, Bool.and_eq_true, List.isEmpty_iff, Option.any_eq_true] at hc
  obtain ⟨⟨hclosed, hslots⟩, c', hend, hignore⟩ := hc
  refine ⟨c, c', hrun, hclosed, hend,
    @closed_terminal Toy.lib c c' _ _ (@Visits.run Toy.lib _ _ _ c hrun) hclosed hend ?_ ?_⟩
  · intro id ch hch
    rw [ChannelTable.get?, hslots] at hch
    cases hch
  · intro before p hp
    have hmem := mem_handledPackets (x := (before, p)).mpr hp
    exact @ignore_not_touches Toy.lib _ _ (of_decide_eq_true (List.all_eq_true.mp hignore _ hmem))

omit [CryptoLib] in
/-- A login after the DISCONNECT is accepted. -/
theorem login_after_disconnect : ¬∀ (lib : CryptoLib) (setup : Setup) (c c' : Conn) (bytes : Bytes),
    @Setup.Visits lib setup c → c.now.closed = true →
    (@arrival lib bytes c).state? = some c' → Still c c' := by
  intro hclaim
  have hpass : (@Setup.run Toy.lib (.server Toy.server) Toy.rng peerLeaves).passes (fun c =>
      c.now.closed && !c.now.authed &&
      (@arrival Toy.lib (Toy.clearPacket (Msg.passwordRequest "proxy" "secret")) c).state?.any
        fun c' => c'.now.authed) = true := by
    decide +kernel
  obtain ⟨_, c, hrun, hc⟩ := Outcome.exists_of_passes hpass
  rw [Bool.and_eq_true, Bool.and_eq_true, Option.any_eq_true] at hc
  obtain ⟨⟨hclosed, hauth⟩, c', hend, hauth'⟩ := hc
  have hsame := (hclaim Toy.lib _ c c' _ (@Visits.run Toy.lib _ _ _ c hrun) hclosed hend).authed
  rw [← hsame, hauth'] at hauth
  cases hauth

end Setup

end Ssproxy
