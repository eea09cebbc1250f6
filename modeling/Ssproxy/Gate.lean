/-
  Ssproxy.Gate

  Which messages a connection sends in which phase of a key exchange.

  - A client sends its password after the first key exchange only, unless the
    peer's SERVICE_ACCEPT comes earlier.
  - `kex_blocks_app` is set while an exchange is running, unless a login opens
    the gate in the middle of one; while it is set, nothing of a channel's
    stream is sent.
  - Replies and channel openings are not held back by the gate: they are sent
    between our KEXINIT and our NEWKEYS whenever something provokes them there.
-/

import Ssproxy.Machine.Emits
import Ssproxy.Auth

namespace Ssproxy

open Lib Wire Connection

variable [CryptoLib] {p payload : Bytes} {owner : Option UInt32} {c c' c1 : Conn} {k : Cause}

-- ============================================================================
-- The messages of steps and handlers by their number
-- ============================================================================

omit [CryptoLib] in
theorem not_isMsg_cons {m m' : MsgType} {r : Bytes} (h : m ≠ m') : ¬IsMsg m' (m.code :: r) :=
  fun hm => h (IsMsg.unique (p := m.code :: r) rfl hm)

omit [CryptoLib] in
theorem mem_of_isMsg {m m' : MsgType} {ms : List MsgType} {r : Bytes} (hmem : m' ∈ ms)
    (hm : IsMsg m' (m.code :: r)) : m ∈ ms := by
  rw [IsMsg.unique (p := m.code :: r) rfl hm]
  exact hmem

omit [CryptoLib] in
/-- The numbers of the messages that steps send. -/
theorem Emits.isMsg {b : Connection} (h : Emits b k owner payload) :
    ∃ m ∈ [MsgType.kexinit, .disconnect, .channelWindowAdjust, .channelData, .channelEof,
      .channelClose, .channelOpenConfirmation, .channelOpenFailure, .channelOpen],
      IsMsg m payload := by
  cases h with
  | kexinit hk hm => exact ⟨_, by decide, hm⟩
  | disconnect | adjust | data | eof | close | confirm | failure | opening =>
    exact ⟨_, by decide, rfl⟩

omit [CryptoLib] in
/-- A message with another number is not sent by a step. -/
theorem Emits.not_isMsg {b : Connection} {m : MsgType} (h : Emits b k owner payload)
    (hm : m ∉ [MsgType.kexinit, .disconnect, .channelWindowAdjust, .channelData, .channelEof,
      .channelClose, .channelOpenConfirmation, .channelOpenFailure, .channelOpen]) :
    ¬IsMsg m payload := by
  obtain ⟨m', hmem, hm'⟩ := h.isMsg
  exact fun hp => hm (hp.unique hm' ▸ hmem)

-- ============================================================================
-- The password of a client
-- ============================================================================

/-- Every USERAUTH_REQUEST was sealed after the first key exchange, and not in
    the clear. -/
def Veiled (c : Conn) : Prop :=
  ∀ b owner payload wire, Obs.queued b owner payload wire ∈ c.log →
    IsMsg .userauthRequest payload → b.firstKexDone = true ∧ b.sendCipher ≠ .clear

/-- Only SERVICE_ACCEPT makes a connection send a USERAUTH_REQUEST. -/
theorem Replied.credentials {c b : Connection} (h : Replied p c b owner payload)
    (hm : IsMsg .userauthRequest payload) : IsMsg .serviceAccept p ∧ b.control = c.control := by
  cases h with
  | answer hb hch h =>
    refine ⟨?_, hb⟩
    cases h with
    | credentials hr hc ha => exact ha
    | «global» hg hw hr =>
      rcases hr with rfl | rfl
      · exact absurd hm (not_isMsg_cons (by decide))
      · exact absurd hm (not_isMsg_cons (by decide))
    | request hq hw hch hr ht =>
      rcases ht with rfl | rfl
      · exact absurd hm (not_isMsg_cons (by decide))
      · exact absurd hm (not_isMsg_cons (by decide))
    | service | unknownType | ping | unknown => exact absurd hm (not_isMsg_cons (by decide))
  | transport ht hmem =>
    cases ht.unique hm
    exact absurd hmem (by decide)
  | accepted | rejected | refused => exact absurd hm (not_isMsg_cons (by decide))

theorem Move.veiled (hm : Move c c') (h : Veiled c) (hwf : WellFormed c)
    (hno : ∀ before p, Obs.handled before p ∈ c'.log → before.firstKexDone = false →
      ¬IsMsg .serviceAccept p) : Veiled c' := by
  intro b owner payload wire hmem hp
  rcases hm.adds b owner payload wire hmem with hold | hnew
  · exact h b owner payload wire hold hp
  cases hnew with
  | step hs => exact absurd hp (hs.2.not_isMsg (by decide))
  | reply hhandled hr =>
    obtain ⟨haccept, hb⟩ := hr.credentials hp
    have hfirst : c.now.firstKexDone = true := by
      by_contra hf
      exact hno _ _ hhandled (Bool.eq_false_iff.mpr hf) haccept
    have hkind : b.sendCipher.kind = c.now.sendCipher.kind := congrArg (·.sendKind) hb
    refine ⟨(congrArg (·.conn.firstKexDone) hb).trans hfirst, ne_clear_of_aead ?_⟩
    rw [hkind]
    exact (hwf.encrypted hfirst).send.2

namespace Setup

/-- A client that handles no SERVICE_ACCEPT before the end of its first key
    exchange does not reveal its password. -/
theorem run_veiled {cfg : ClientConfig} {rng : Rng} {calls : List Call} {c : Conn}
    (hrun : (Setup.client cfg).run rng calls = .ok () c)
    (hno : ∀ x ∈ handledPackets c.log, x.1.firstKexDone = false → ¬IsMsg .serviceAccept x.2) :
    Veiled c := by
  refine run_invariant (G := fun o => ∀ before p, o = .handled before p →
    before.firstKexDone = false → ¬IsMsg .serviceAccept p) ?_ ?_ hrun ?_
  · intro c0 h0 b owner payload wire hmem hp
    have hadds := h0.adds (P := fun _ _ payload => IsMsg .kexinit payload) fun _ _ _ hm => hm
    rcases hadds b owner payload wire hmem with hold | hk
    · exact absurd hold List.not_mem_nil
    · cases hk.unique hp
  · exact fun c c' hwf h hm hG => hm.veiled h hwf fun before p hp => hG _ hp before p rfl
  · rintro _ ho before p rfl
    exact hno (before, p) (mem_handledPackets.mpr ho)

/-- A server that goes through the first key exchange and then accepts the
    authentication service. -/
def acceptsService : List Call :=
  [.recv (Toy.identLine ++ Toy.clearPacket (Toy.kexinit ["curve25519-sha256"] serverCiphers)
      ++ Toy.clearPacket (Msg.ecdhReply [1] Toy.point [2])
      ++ Toy.clearPacket Msg.newkeys
      ++ Toy.sealedPacket (Msg.serviceAccept "ssh-userauth")), .processIn]

omit [CryptoLib] in
theorem run_veiled_acceptsService : ∃ c,
    @Setup.run Toy.lib (.client Toy.client) Toy.rng acceptsService = .ok () c ∧
      c.log.any (fun o => match o with
        | .queued _ _ payload _ => decide (IsMsg .userauthRequest payload)
        | _ => false) = true ∧ Veiled c := by
  have hpass : (@Setup.run Toy.lib (.client Toy.client) Toy.rng acceptsService).passes (fun c =>
      c.log.any (fun o => match o with
        | .queued _ _ payload _ => decide (IsMsg .userauthRequest payload)
        | _ => false) &&
      decide (∀ x ∈ handledPackets c.log, x.1.firstKexDone = false → ¬IsMsg .serviceAccept x.2))
      = true := by
    decide +kernel
  obtain ⟨_, c, hrun, hc⟩ := Outcome.exists_of_passes hpass
  rw [Bool.and_eq_true, decide_eq_true_iff] at hc
  exact ⟨c, hrun, hc.1, @run_veiled Toy.lib _ _ _ c hrun hc.2⟩

/-- A peer that accepts the service before any key exchange. -/
def acceptsEarly : List Call :=
  [.recv (Toy.identLine ++ Toy.clearPacket (Msg.serviceAccept "ssh-userauth")), .processIn]

omit [CryptoLib] in
/-- It gets the password in the clear. -/
theorem password_in_the_clear : ¬∀ (lib : CryptoLib) (cfg : ClientConfig) (rng : Rng)
    (calls : List Call) (c : Conn),
    @Setup.run lib (.client cfg) rng calls = .ok () c → Veiled c := by
  intro hclaim
  have hpass : (@Setup.run Toy.lib (.client Toy.client) Toy.rng acceptsEarly).passes (fun c =>
      c.log.any (Obs.someQueued fun b _ payload =>
        decide (IsMsg .userauthRequest payload) && !b.firstKexDone)) = true := by
    decide +kernel
  obtain ⟨_, c, hrun, hc⟩ := Outcome.exists_of_passes hpass
  obtain ⟨o, ho, hb⟩ := List.any_eq_true.mp hc
  cases o with
  | queued b owner payload wire =>
    rw [Obs.someQueued, Bool.and_eq_true, decide_eq_true_iff] at hb
    have hdone := (hclaim _ _ _ _ c hrun b owner payload wire ho hb.1).1
    rw [hdone] at hb
    cases hb.2
  | _ => cases hb

end Setup

-- ============================================================================
-- The gate
-- ============================================================================

/-- While a key exchange is running, the gate is closed. -/
def Gated (c : Connection) : Prop := c.kex.isSome = true → c.kexBlocksApp = true

/-- The messages that the gate holds back. -/
def MsgType.app : List MsgType := [.channelData, .channelWindowAdjust, .channelEof, .channelClose]

def IsApp (payload : Bytes) : Prop := ∃ m ∈ MsgType.app, IsMsg m payload

/-- `p` makes the connection `c` open the gate for a login. -/
inductive OpensGate (c : Connection) (p : Bytes) : Prop where
  | success (hm : IsMsg .userauthSuccess p)
  | password {cfg : ServerConfig} {user password : String} (hrole : c.role = .server)
      (hcfg : c.server = some cfg) (hm : Msg.passwordRequest user password <+: p)
      (hok : cfg.checkPassword user password = true)

omit [CryptoLib] in
theorem gated_of_control {c c' : Connection} (hc : c'.control = c.control) (h : Gated c) :
    Gated c' := by
  have hkex : c'.kex = c.kex := congrArg (·.conn.kex) hc
  have hgate : c'.kexBlocksApp = c.kexBlocksApp := congrArg (·.conn.kexBlocksApp) hc
  unfold Gated
  rw [hkex, hgate]
  exact h

theorem Starts.gate (h : Starts c c') : c'.now.kexBlocksApp = true := by
  cases h with
  | mk hq => rfl

theorem Joins.gated (h : Joins c c') (hg : Gated c.now) : Gated c'.now := by
  cases h with
  | running hk => exact hg
  | started hk hs => exact fun _ => hs.gate

theorem HangsUp.gated {reason : UInt32} {msg : String} (h : HangsUp reason msg c c')
    (hg : Gated c.now) : Gated c'.now := by
  cases h with
  | again hc => exact hg
  | first hc hs =>
    have h := gated_of_control hs.control hg
    exact h

theorem Denies.gated {cfg : ServerConfig} (h : Denies cfg c c') (hg : Gated c.now) :
    Gated c'.now := by
  cases h with
  | soft hlt hq => exact gated_of_control hq.control hg
  | hard hge hh => exact hh.gated hg

theorem Switches.gated {pk : PendingKeys} (h : Switches pk c c') (hg : Gated c.now) :
    Gated c'.now := by
  cases h with
  | mk hpk hq =>
    have h := gated_of_control hq.control hg
    exact h

theorem Greets.gated (h : Greets c c') (hg : Gated c.now) : Gated c'.now := by
  cases h with
  | silent hr he => exact hg
  | extInfo hr he hq => exact gated_of_control hq.control hg
  | service hr hq => exact gated_of_control hq.control hg

theorem Step.gated (h : Step k c c') (hg : Gated c.now) : Gated c'.now := by
  rcases h.control with hc | ⟨-, hs⟩ | ⟨reason, msg, hh⟩
  · exact gated_of_control hc hg
  · exact fun _ => hs.gate
  · exact hh.gated hg

/-- Only a login opens the gate while an exchange is running. -/
theorem Handles.gated (h : Handles p c c') (hg : Gated c.now)
    (hno : c.now.kex.isSome = true → ¬OpensGate c.now p) : Gated c'.now := by
  -- a login is handled outside of key exchanges only
  have hlogin : ∀ {c1 : Conn}, Receives p c c1 → OpensGate c.now p → c1.now.kex.isSome = false := by
    intro c1 hr ho
    have hkex : c1.now.kex = c.now.kex := congrArg (·.conn.kex) hr.control
    rw [hkex]
    exact Bool.eq_false_iff.mpr fun hk => hno hk ho
  have hrecv : ∀ {c1 : Conn}, Receives p c c1 → Gated c1.now :=
    fun hr => gated_of_control hr.control hg
  -- most handlers leave the exchange and the gate alone
  have hsame : ∀ {c1 : Conn}, Receives p c c1 → c'.now.kex = c1.now.kex →
      c'.now.kexBlocksApp = c1.now.kexBlocksApp → Gated c'.now := by
    intro c1 hr hkex hgate hk
    rw [hgate]
    exact hrecv hr (hkex ▸ hk)
  cases h with
  | skip hr h => exact hrecv hr
  | answer hr h hq => exact gated_of_control hq.control (hrecv hr)
  | kexinitServer hr hm hrole hp hj hk hn =>
    exact fun _ => hj.gated (hrecv hr) (Option.isSome_iff_exists.mpr ⟨_, hk⟩)
  | @kexinitClient c1 c2 c' q theirs k c2s s2c pub hr hm hrole hp hj hk hn hpub hq =>
    have hrec : Gated (c2.now.recorded k theirs c2s s2c) :=
      fun _ => hj.gated (hrecv hr) (Option.isSome_iff_exists.mpr ⟨_, hk⟩)
    exact gated_of_control hq.control hrec
  | ecdhInit hr hrole hm hcfg hx hz hq hs =>
    have hg1 := hrecv hr
    exact hs.gated (gated_of_control hq.control hg1)
  | ecdhReply hr hrole hm hpub hsec hx hks hsig hz hs =>
    have hg1 := hrecv hr (Option.isSome_iff_exists.mpr ⟨_, hx.kex⟩)
    exact hs.gated fun _ => hg1
  | newkeysFirst hr hm hpk hf hgreet => exact hgreet.gated nofun
  | newkeysAgain hr hm hpk hf => exact nofun
  | userauthSuccess hr hm =>
    intro hk
    have hnone := hlogin hr (.success hm)
    exact absurd (hnone.symm.trans hk) Bool.false_ne_true
  | @authAccept c1 c2 cfg user password hr hrole hcfg hm hok hq =>
    have hnone : c1.now.kex.isSome = false := by
      refine hlogin hr (.password ?_ ?_ hm hok)
      · exact (congrArg (·.role) hr.settings).symm.trans hrole
      · exact (congrArg (·.server) hr.settings).symm.trans hcfg
    have hopen : Gated (c1.now.login user) := fun hk => absurd (hnone.symm.trans hk) Bool.false_ne_true
    have h := gated_of_control hq.control hopen
    exact h
  | authReject hr hrole hcfg hm hbad hd =>
    have hg1 := hrecv hr
    exact hd.gated hg1
  | authOther hr hrole hcfg hm hd => exact hd.gated (hrecv hr)
  | disconnect hr hm => exact hsame hr rfl rfl
  | openSession hr hm hauth ha =>
    have h := gated_of_control ha.control (hrecv hr)
    exact h
  | openDirect hr hm hauth ha =>
    have h := gated_of_control ha.control (hrecv hr)
    exact h
  | openConfirm hr hm hch => exact hsame hr rfl rfl
  | openFail hr hm => exact hsame hr rfl rfl
  | windowAdjust hr hm hch => exact hsame hr rfl rfl
  | deliver hr hm hch hw => exact hsame hr rfl rfl
  | peerEof hr hm hch => exact hsame hr rfl rfl
  | peerEofUnknown hr hm hch => exact hsame hr rfl rfl
  | peerClose hr hm hch => exact hsame hr rfl rfl

theorem Faults.gated (h : Faults c c') (hg : Gated c.now) : Gated c'.now := by
  cases h with
  | reject h => exact gated_of_control h.control hg
  | spoil h hm =>
    have hg1 := gated_of_control h.control hg
    intro hk
    rw [Option.isSome_map] at hk
    exact hg1 hk
  | drop hkind => exact hg
  | identBad h => exact hg

theorem Move.gated (h : Move c c') (hg : Gated c.now)
    (hno : ∀ before p, Obs.handled before p ∈ c'.log → before.kex.isSome = true →
      ¬OpensGate before p) : Gated c'.now := by
  cases h with
  | quiet h =>
    cases h with
    | step h => exact h.gated hg
    | handle h =>
      refine h.gated hg (hno _ _ (h.log.subset ?_))
      exact List.mem_append_right _ (List.mem_singleton.mpr rfl)
    | identWait h hno => exact hg
    | identDone h hs => exact hg
  | fault h => exact h.gated hg
  | recv bytes => exact hg
  | own h => exact h.gated hg

omit [CryptoLib] in
/-- What the gate holds back is sent by steps, with the gate open. -/
theorem Emits.gate {b : Connection} (h : Emits b k owner payload) (hp : IsApp payload) :
    b.kexBlocksApp = false := by
  obtain ⟨m, hmem, hm⟩ := hp
  cases h with
  | adjust hgate => exact hgate
  | data hgate => exact hgate
  | eof hgate => exact hgate
  | close hgate => exact hgate
  | kexinit hk hk' =>
    cases hk'.unique hm
    exact absurd hmem (by decide)
  | disconnect | confirm | failure | opening =>
    exact absurd (mem_of_isMsg hmem hm) (by decide)

theorem Replied.not_app {c b : Connection} (h : Replied p c b owner payload) : ¬IsApp payload := by
  rintro ⟨m, hmem, hm⟩
  cases h with
  | answer hb hch h =>
    cases h with
    | «global» hg hw hr =>
      rcases hr with rfl | rfl
      · exact absurd (mem_of_isMsg hmem hm) (by decide)
      · exact absurd (mem_of_isMsg hmem hm) (by decide)
    | request hq hw hch hr ht =>
      rcases ht with rfl | rfl
      · exact absurd (mem_of_isMsg hmem hm) (by decide)
      · exact absurd (mem_of_isMsg hmem hm) (by decide)
    | service | credentials | unknownType | ping | unknown =>
      exact absurd (mem_of_isMsg hmem hm) (by decide)
  | transport ht hmem' =>
    cases ht.unique hm
    exact (by decide : ∀ m ∈ MsgType.transport, m ∉ MsgType.app) m hmem' hmem
  | accepted | rejected | refused => exact absurd (mem_of_isMsg hmem hm) (by decide)

/-- What the gate holds back was sent outside of key exchanges. -/
def AppOutside (c : Conn) : Prop :=
  ∀ b owner payload wire, Obs.queued b owner payload wire ∈ c.log → IsApp payload → b.kex = none

theorem Move.appOutside (hm : Move c c') (hg : Gated c.now) (h : AppOutside c) : AppOutside c' := by
  intro b owner payload wire hmem hp
  rcases hm.adds b owner payload wire hmem with hold | hnew
  · exact h b owner payload wire hold hp
  cases hnew with
  | step hs =>
    have hopen := hs.2.gate hp
    by_contra hk
    rw [gated_of_control hs.1 hg (Option.isSome_iff_ne_none.mpr hk)] at hopen
    cases hopen
  | reply hhandled hr => exact absurd hp hr.not_app

namespace Setup

/-- If no login is handled while a key exchange is running, the gate is closed
    during every exchange, and from our KEXINIT to the end of the exchange
    nothing of a channel's stream is sent. -/
theorem run_gated {setup : Setup} {rng : Rng} {calls : List Call} {c : Conn}
    (hrun : setup.run rng calls = .ok () c)
    (hno : ∀ x ∈ handledPackets c.log, x.1.kex.isSome = true → ¬OpensGate x.1 x.2) :
    Gated c.now ∧ ∀ x ∈ staged .idle c.log, x.1 ≠ .idle → ¬IsApp x.2.2 := by
  have hinv : Gated c.now ∧ AppOutside c := by
    refine run_invariant (I := fun c => Gated c.now ∧ AppOutside c)
      (G := fun o => ∀ before p, o = .handled before p → before.kex.isSome = true →
        ¬OpensGate before p) ?_ ?_ hrun ?_
    · intro c0 h0
      refine ⟨fun _ => h0.gate, fun b owner payload wire hmem ⟨m, hm, hp⟩ => ?_⟩
      have hadds := h0.adds (P := fun _ _ payload => IsMsg .kexinit payload) fun _ _ _ hm => hm
      rcases hadds b owner payload wire hmem with hold | hk
      · exact absurd hold List.not_mem_nil
      · cases hk.unique hp
        exact absurd hm (by decide)
    · rintro c c' - ⟨hg, ha⟩ hm hG
      exact ⟨hm.gated hg fun before p hp => hG _ hp before p rfl, hm.appOutside hg ha⟩
    · rintro _ ho before p rfl
      exact hno (before, p) (mem_handledPackets.mpr ho)
  refine ⟨hinv.1, fun x hx hstage happ => ?_⟩
  obtain ⟨owner, wire, hmem⟩ := mem_of_staged hx
  have hnone := hinv.2 x.2.1 owner x.2.2 wire hmem happ
  rw [(run_staged hrun).sent x hx] at hstage
  exact absurd (stage_ne_idle.mp hstage) (by rw [hnone]; decide)

/-- A peer that logs in after a key exchange and starts the next one, with
    `more` behind its KEXINIT. -/
def loginThenRekey (more : List Bytes) : List Call :=
  [.recv (Toy.identLine ++ Toy.clearPacket (Toy.kexinit ["curve25519-sha256"] serverCiphers)
      ++ Toy.clearPacket (Msg.ecdhInit Toy.point)
      ++ Toy.clearPacket Msg.newkeys
      ++ Toy.sealedPacket (Msg.passwordRequest "proxy" "secret")
      ++ Toy.sealedPacket (Toy.kexinit ["curve25519-sha256"] serverCiphers)
      ++ (more.map Toy.sealedPacket).flatten), .processIn]

omit [CryptoLib] in
theorem run_gated_loginThenRekey : ∃ c,
    @Setup.run Toy.lib (.server Toy.server) Toy.rng (loginThenRekey []) = .ok () c ∧
      c.now.authed = true ∧ c.now.kex.isSome = true ∧ c.now.kexBlocksApp = true := by
  have hpass : (@Setup.run Toy.lib (.server Toy.server) Toy.rng (loginThenRekey [])).passes
      (fun c => (c.now.authed && c.now.kex.isSome) &&
        decide (∀ x ∈ handledPackets c.log, x.1.kex.isSome = true →
          ¬IsMsg .userauthSuccess x.2 ∧ ¬IsMsg .userauthRequest x.2)) = true := by
    decide +kernel
  obtain ⟨_, c, hrun, hc⟩ := Outcome.exists_of_passes hpass
  rw [Bool.and_eq_true, Bool.and_eq_true, decide_eq_true_iff] at hc
  have hgated := (@run_gated Toy.lib _ _ _ c hrun fun x hx hk ho => by
    cases ho with
    | success hm => exact (hc.2 x hx hk).1 hm
    | password hrole hcfg hm hok => exact (hc.2 x hx hk).2 (IsMsg.of_prefix hm)).1
  exact ⟨c, hrun, hc.1.1, hc.1.2, hgated hc.1.2⟩

omit [CryptoLib] in
/-- A login in the middle of the first exchange opens the gate. -/
theorem login_opens_gate : ¬∀ (lib : CryptoLib) (setup : Setup) (rng : Rng) (calls : List Call)
    (c : Conn), @Setup.run lib setup rng calls = .ok () c →
    Gated c.now ∧ ∀ x ∈ staged .idle c.log, x.1 ≠ .idle → ¬IsApp x.2.2 := by
  intro hclaim
  have hpass : (@Setup.run Toy.lib (.server Toy.server) Toy.rng passwordLogin).passes (fun c =>
      c.now.kex.isSome && !c.now.kexBlocksApp) = true := by
    decide +kernel
  obtain ⟨_, c, hrun, hc⟩ := Outcome.exists_of_passes hpass
  rw [Bool.and_eq_true] at hc
  have hgate := (hclaim _ _ _ _ c hrun).1 hc.1
  rw [hgate] at hc
  cases hc.2

end Setup

-- ============================================================================
-- Replies in the middle of an exchange
-- ============================================================================

/-- The messages of the layers above the transport that are not part of a
    channel's stream. -/
def MsgType.control : List MsgType :=
  [.serviceAccept, .userauthRequest, .userauthFailure, .userauthSuccess, .userauthBanner,
    .requestSuccess, .requestFailure, .channelOpen, .channelOpenConfirmation, .channelOpenFailure,
    .channelSuccess, .channelFailure]

def IsControl (payload : Bytes) : Prop := ∃ m ∈ MsgType.control, IsMsg m payload

/-- `p` makes the connection `c`, authenticated before or by it, send such a
    message. -/
inductive Provokes (c : Connection) (p : Bytes) : Prop where
  | login {cfg : ServerConfig} {user password : String} (hrole : c.role = .server)
      (hcfg : c.server = some cfg) (hm : Msg.passwordRequest user password <+: p)
      (hok : cfg.checkPassword user password = true)
  | rejected {cfg : ServerConfig} {user password : String} (ha : c.authed = true)
      (hrole : c.role = .server) (hcfg : c.server = some cfg)
      (hm : Msg.passwordRequest user password <+: p)
      (hbad : cfg.checkPassword user password = false) (hlt : c.authFails + 1 < cfg.maxAuthFails)
  | refused {cfg : ServerConfig} (ha : c.authed = true) (hrole : c.role = .server)
      (hcfg : c.server = some cfg) (ho : Unchecked p) (hlt : c.authFails < cfg.maxAuthFails)
  | service {name : String} (ha : c.authed = true) (hrole : c.role = .server)
      (hm : MsgType.serviceRequest.code :: putStr name <+: p)
      (hn : name = "ssh-userauth" ∨ name = "ssh-connection")
  | credentials {cfg : ClientConfig} (ha : c.authed = true) (hrole : c.role = .client)
      (hcfg : c.client = some cfg) (hm : IsMsg .serviceAccept p)
      (hfit : ¬c.TooLong (Msg.passwordRequest cfg.username cfg.password))
  | global (ha : c.authed = true) (hm : IsMsg .globalRequest p) (hw : globalWants p = true)
  | opening {typ : String} {remote w m : UInt32} (ha : c.authed = true)
      (hm : MsgType.channelOpen.code ::
        (putStr typ ++ putU32 remote ++ putU32 w ++ putU32 m) <+: p)
      (ht : typ ≠ "session" ∧ typ ≠ "direct-tcpip")
  | request {id r : UInt32} {ch : Channel} (ha : c.authed = true)
      (hm : MsgType.channelRequest.code :: putU32 id <+: p) (hw : requestWants p = true)
      (hch : c.channels.get? id = some ch) (hr : ch.remoteId = some r)

/-- The table has a free slot, or room for one more. -/
def ChannelTable.hasRoom (t : ChannelTable) : Prop :=
  t.free ≠ [] ∨ UInt32.ofNat t.slots.length < t.maxChannels

/-- The call makes the connection `c` send such a message. -/
def Call.Speaks (c : Connection) : Call → Prop
  | .confirmOpen id => ∃ ch r, c.channels.get? id = some ch ∧ ch.remoteId = some r
  | .failOpen id reason msg => ∃ ch r, c.channels.get? id = some ch ∧ ch.remoteId = some r ∧
      ¬c.TooLong (Msg.openFailure r reason msg)
  | .openDirectTcpip host port => c.role = .client ∧ c.channels.hasRoom ∧
      ¬c.TooLong (Msg.channelOpen 0 c.window c.maxPacket host port)
  | _ => False

omit [CryptoLib] in
theorem Allocates.hasRoom {ch : Channel} {id : UInt32} (h : Allocates ch c id c') :
    c.now.channels.hasRoom := by
  cases h with
  | mk ht =>
    unfold ChannelTable.alloc at ht
    simp only [Proc.bind_apply, Proc.get_apply, Outcome.bind_ok] at ht
    cases hf : c.now.channels.free with
    | cons i rest => exact .inl (by rw [hf]; exact List.cons_ne_nil _ _)
    | nil =>
      rw [hf] at ht
      simp only [Proc.ite_apply] at ht
      split at ht
      · cases ht
      · rename_i hfull
        exact .inr (UInt32.not_le.mp hfull)

/-- The calls that open a channel or answer a CHANNEL_OPEN. -/
def Call.isOpening : Call → Bool
  | .confirmOpen _ | .failOpen _ _ _ | .openDirectTcpip _ _ => true
  | _ => false

omit [CryptoLib] in
theorem Emits.isOpening {b : Connection} (h : Emits b k owner payload) (hp : IsControl payload) :
    ∃ call, k = .call call ∧ call.isOpening = true := by
  obtain ⟨m, hmem, hm⟩ := hp
  cases h with
  | confirm | failure | opening => exact ⟨_, rfl, rfl⟩
  | kexinit hk hk' =>
    cases hk'.unique hm
    exact absurd hmem (by decide)
  | disconnect | adjust | data | eof | close => exact absurd (mem_of_isMsg hmem hm) (by decide)

/-- Of the steps only those of the three calls send such a message. -/
theorem Step.speaks (h : Step k c c') : Adds (fun b _ payload => b.control = c.now.control ∧
    (IsControl payload → ∃ call, k = .call call ∧ call.Speaks c.now)) c.log c'.log := by
  by_cases hk : ∃ call, k = .call call ∧ call.isOpening = true
  · obtain ⟨call, rfl, hopening⟩ := hk
    cases h with
    | confirmSilent hch hr => exact .refl _ _
    | confirm hch hr hq => exact hq.adds ⟨rfl, fun _ => ⟨_, rfl, _, _, hch, hr⟩⟩
    | failOpen hch hr hs =>
      refine (adds_withoutChannel _ _).trans (hs.adds_fit fun hfit => ?_)
      exact ⟨rfl, fun _ => ⟨_, rfl, _, _, hch, hr, fun hlong => hfit ((tooLong_congr rfl rfl).mpr hlong)⟩⟩
    | openLocal hrole hauth ha hs =>
      refine ha.adds.trans (hs.adds_fit fun hfit => ?_)
      have hkind := congrArg (·.sendKind) ha.control
      exact ⟨ha.control, fun _ => ⟨_, rfl, hrole, ha.hasRoom, fun hlong =>
        hfit ((tooLong_congr hkind rfl).mpr hlong)⟩⟩
    | drain | popEvent | roundRobin | consume | sendData | sendLost | askEof => cases hopening
  · refine h.adds.mono ?_
    rintro b owner payload ⟨hb, he⟩
    exact ⟨hb, fun hp => absurd (he.isOpening hp) hk⟩

/-- Of the handlers only those of packets that `Provokes` lists. -/
theorem Replied.provokes {c b : Connection} (h : Replied p c b owner payload)
    (hp : IsControl payload) (ha : b.authed = true) : b.stage = c.stage ∧ Provokes c p := by
  obtain ⟨m, hmem, hm⟩ := hp
  cases h with
  | answer hb hch h hfit =>
    refine ⟨stage_of_control hb, ?_⟩
    have hauthed : c.authed = true := (congrArg (·.conn.authed) hb).symm.trans ha
    have hrole : b.role = c.role := congrArg (·.conn.role) hb
    cases h with
    | service hr hs hn => exact .service hauthed (hrole.symm.trans hr) hs hn
    | credentials hr hc hs =>
      refine .credentials hauthed (hrole.symm.trans hr)
        ((congrArg (·.conn.client) hb).symm.trans hc) hs fun hlong => hfit ?_
      exact (tooLong_congr (congrArg (·.sendKind) hb) rfl).mpr hlong
    | «global» hs hw hr => exact .global hauthed hs hw
    | unknownType hb hs ht hrest =>
      obtain ⟨w, m, hs⟩ := hrest
      exact .opening hauthed hs ht
    | request hs hw hget hr ht => exact .request hauthed hs hw (hch ▸ hget) hr
    | ping | unknown => exact absurd (mem_of_isMsg hmem hm) (by decide)
  | transport ht hmem' =>
    cases ht.unique hm
    exact absurd hmem ((by decide : ∀ m ∈ MsgType.transport, m ∉ MsgType.control) m hmem')
  | accepted hrole hcfg hs hok hst => exact ⟨hst, .login hrole hcfg hs hok⟩
  | rejected hrole hcfg hs hbad hlt hau hst =>
    exact ⟨hst, .rejected (hau ▸ ha) hrole hcfg hs hbad hlt⟩
  | refused hrole hcfg hs hlt hau hst ho =>
    exact ⟨hst, .refused (hau ▸ ha) hrole hcfg ho hlt⟩

/-- No such message was sent by an authenticated connection between its KEXINIT
    and its NEWKEYS. -/
def Reticent (log : List Obs) : Prop :=
  ∀ b owner payload wire, Obs.queued b owner payload wire ∈ log → b.stage = .offered →
    b.authed = true → ¬IsControl payload

omit [CryptoLib] in
theorem Reticent.adds {l l' : List Obs} {P : Connection → Option UInt32 → Bytes → Prop}
    (h : Reticent l) (ha : Adds P l l')
    (hP : ∀ b owner payload, P b owner payload → b.stage = .offered → b.authed = true →
      ¬IsControl payload) : Reticent l' := by
  intro b owner payload wire hmem
  rcases ha b owner payload wire hmem with hold | hnew
  · exact h b owner payload wire hold
  · exact hP b owner payload hnew

/-- A step that no application takes. -/
theorem Step.reticent (hs : Step k c c') (hk : k.Inner) (h : Reticent c.log) :
    Reticent c'.log := by
  refine h.adds hs.speaks ?_
  rintro b owner payload ⟨-, hcall⟩ - - hp
  obtain ⟨call, rfl, -⟩ := hcall hp
  exact hk

theorem Trail.reticent (ht : Trail Cause.Inner c c') (h : Reticent c.log) : Reticent c'.log := by
  induction ht with
  | refl => exact h
  | tail _ hlast ih =>
    obtain ⟨k, hk, hs⟩ := hlast
    exact hs.reticent hk ih

theorem Turn.reticent (ht : Turn c c') (h : Reticent c.log)
    (hno : ∀ before p, Obs.handled before p ∈ c'.log → before.stage = .offered →
      ¬Provokes before p) : Reticent c'.log := by
  have hhandle : ∀ {p : Bytes} {c1 : Conn}, Handles p c c1 → c1.log <+: c'.log →
      Reticent c1.log := by
    intro p c1 hh hlog
    refine h.adds hh.adds ?_
    intro b owner payload hr hstage hauth hp
    obtain ⟨hs, hprov⟩ := hr.provokes hp hauth
    refine hno c.now p (hlog.subset (hh.log.subset ?_)) (hs ▸ hstage) hprov
    exact List.mem_append_right _ (List.mem_singleton.mpr rfl)
  cases ht with
  | quiet hq =>
    cases hq with
    | step hs => exact hs.reticent trivial h
    | handle hh => exact hhandle hh (List.prefix_refl _)
    | identWait hid hnl => exact h
    | identDone hid hs => exact h
  | packet hh hs => exact hs.trail.reticent (hhandle hh hs.trail.extends.log.isPrefix)

theorem Called.reticent {call : Call} (hc : Called call c c') (h : Reticent c.log)
    (hno : c.now.stage = .offered → c.now.authed = true → ¬call.Speaks c.now) :
    Reticent c'.log := by
  have hown : ∀ {c1 : Conn}, Step (.call call) c c1 → Reticent c1.log := by
    intro c1 hs
    refine h.adds hs.speaks ?_
    rintro b owner payload ⟨hb, hcall⟩ hstage hauth hp
    obtain ⟨call', hk, hspeaks⟩ := hcall hp
    cases hk
    exact hno ((stage_of_control hb).symm.trans hstage)
      ((congrArg (·.conn.authed) hb).symm.trans hauth) hspeaks
  cases hc with
  | own hs hrest => exact (Steps.trail hrest).reticent (hown hs)
  | consume hcall hs ha => exact ha.trail.reticent (hown hs)
  | other hs => exact (Steps.trail hs).reticent h

namespace Setup

/-- If nothing provokes a reply between our KEXINIT and our NEWKEYS and no
    channel is opened, confirmed or refused there, then an authenticated
    connection sends only transport messages there. -/
theorem run_reticent {setup : Setup} {rng : Rng} {calls : List Call} {c : Conn}
    (hrun : setup.run rng calls = .ok () c)
    (hno : ∀ x ∈ handledPackets c.log, x.1.stage = .offered → ¬Provokes x.1 x.2)
    (hcalls : ∀ pre call post c1, calls = pre ++ call :: post → setup.run rng pre = .ok () c1 →
      c1.now.stage = .offered → c1.now.authed = true → ¬call.Speaks c1.now) :
    ∀ x ∈ staged .idle c.log, x.1 = .offered → x.2.1.authed = true → ¬IsControl x.2.2 := by
  have hinv : Reticent c.log := by
    refine run_turns (I := fun c => Reticent c.log)
      (G := fun o => ∀ before p, o = .handled before p → before.stage = .offered →
        ¬Provokes before p) ?_ ?_ ?_ ?_ ?_ hrun ?_
    · intro c0 h0 b owner payload wire hmem hstage
      have hadds := h0.adds (P := fun b _ _ => b.control = (setup.blank rng).control)
        fun _ _ hb _ => hb
      rcases hadds b owner payload wire hmem with hold | hb
      · exact absurd hold List.not_mem_nil
      · rw [stage_of_control hb, Connection.stage, setup.blank_kex rng] at hstage
        cases hstage
    · exact fun c c' _ h ht hG => ht.reticent h fun before p hp => hG _ hp before p rfl
    · exact fun c c' _ h hf _ => h.adds (hf.adds (P := fun _ _ _ => False)) fun _ _ _ hF => hF.elim
    · exact fun _ _ h => h
    · exact fun pre call post c1 c2 hsplit hpre _ h hc _ =>
        hc.reticent h (hcalls pre call post c1 hsplit hpre)
    · rintro _ ho before p rfl
      exact hno (before, p) (mem_handledPackets.mpr ho)
  intro x hx hstage
  obtain ⟨owner, wire, hmem⟩ := mem_of_staged hx
  rw [(run_staged hrun).sent x hx] at hstage
  exact hinv x.2.1 owner x.2.2 wire hmem hstage

omit [CryptoLib] in
/-- A peer that starts the second exchange and is silent then. -/
theorem run_reticent_loginThenRekey : ∃ c,
    @Setup.run Toy.lib (.server Toy.server) Toy.rng (loginThenRekey []) = .ok () c ∧
      c.now.authed = true ∧ c.now.stage = .offered ∧
      ∀ x ∈ staged .idle c.log, x.1 = .offered → x.2.1.authed = true → ¬IsControl x.2.2 := by
  have hpass : (@Setup.run Toy.lib (.server Toy.server) Toy.rng (loginThenRekey [])).passes
      (fun c => (c.now.authed && decide (c.now.stage = .offered)) &&
        decide (∀ x ∈ handledPackets c.log, x.1.stage = .offered →
          IsMsg .kexinit x.2 ∨ IsMsg .kexEcdhInit x.2)) = true := by
    decide +kernel
  obtain ⟨_, c, hrun, hc⟩ := Outcome.exists_of_passes hpass
  rw [Bool.and_eq_true, Bool.and_eq_true, decide_eq_true_iff, decide_eq_true_iff] at hc
  refine ⟨c, hrun, hc.1.1, hc.1.2, @run_reticent Toy.lib _ _ _ c hrun ?_ ?_⟩
  · intro x hx hs hp
    have hm : ∃ m ∈ [MsgType.userauthRequest, .serviceRequest, .serviceAccept, .globalRequest,
        .channelOpen, .channelRequest], IsMsg m x.2 := by
      cases hp with
      | login hrole hcfg hm hok => exact ⟨_, by decide, IsMsg.of_prefix hm⟩
      | rejected ha hrole hcfg hm hbad hlt => exact ⟨_, by decide, IsMsg.of_prefix hm⟩
      | refused ha hrole hcfg ho hlt => exact ⟨_, by decide, ho.isMsg⟩
      | service ha hrole hm hn => exact ⟨_, by decide, IsMsg.of_prefix hm⟩
      | credentials ha hrole hcfg hm hfit => exact ⟨_, by decide, hm⟩
      | «global» ha hm hw => exact ⟨_, by decide, hm⟩
      | opening ha hm ht => exact ⟨_, by decide, IsMsg.of_prefix hm⟩
      | request ha hm hw hch hr => exact ⟨_, by decide, IsMsg.of_prefix hm⟩
    obtain ⟨m, hmem, hm⟩ := hm
    rcases hc.2 x hx hs with h | h
    · cases hm.unique h
      exact absurd hmem (by decide)
    · cases hm.unique h
      exact absurd hmem (by decide)
  · intro pre call post c1 hsplit hpre _ _ hspeaks
    have hmem : call ∈ loginThenRekey [] := by
      rw [hsplit]
      exact List.mem_append_right _ List.mem_cons_self
    rcases List.mem_cons.mp hmem with rfl | hmem
    · exact hspeaks
    · cases List.mem_singleton.mp hmem
      exact hspeaks

/-- A GLOBAL_REQUEST that wants a reply. -/
def wantsReply : Bytes := MsgType.globalRequest.code :: (putStr "x" ++ putBool true)

omit [CryptoLib] in
/-- A request that follows the peer's KEXINIT is answered before our NEWKEYS. -/
theorem reply_inside_exchange : ¬∀ (lib : CryptoLib) (setup : Setup) (rng : Rng)
    (calls : List Call) (c : Conn), @Setup.run lib setup rng calls = .ok () c →
    ∀ x ∈ staged .idle c.log, x.1 = .offered → x.2.1.authed = true → ¬IsControl x.2.2 := by
  intro hclaim
  have hpass : (@Setup.run Toy.lib (.server Toy.server) Toy.rng (loginThenRekey [wantsReply])).passes
      (fun c => (staged .idle c.log).any fun x => decide (x.1 = .offered) && x.2.1.authed &&
        decide (∃ m ∈ MsgType.control, IsMsg m x.2.2)) = true := by
    decide +kernel
  obtain ⟨_, c, hrun, hc⟩ := Outcome.exists_of_passes hpass
  obtain ⟨x, hx, hb⟩ := List.any_eq_true.mp hc
  rw [Bool.and_eq_true, Bool.and_eq_true, decide_eq_true_iff, decide_eq_true_iff] at hb
  exact hclaim _ _ _ _ c hrun x hx hb.1.1 hb.1.2 hb.2

end Setup

end Ssproxy
