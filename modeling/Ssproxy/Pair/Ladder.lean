/-
  Ssproxy.Pair.Ladder

  The way of one end from its first key exchange to the login.

  - `Footing`: the part of a connection that the login depends on.
  - `LoginEffect`: what handling a packet does to it, and what is sent.
  - `Grounded`: whatever an end has sent or become has its reason in what it has
    handled.
  - `Prompt`: what it has handled was answered.
-/

import Ssproxy.Pair.Hops

namespace Ssproxy

open Lib Wire Connection Relation

-- ============================================================================
-- Messages
-- ============================================================================

/-- The messages of the login, and the open of a channel. -/
def MsgType.login : List MsgType :=
  [.serviceRequest, .serviceAccept, .userauthRequest, .userauthSuccess, .channelOpen]

/-- None of them. -/
def Aside (p : Bytes) : Prop := ∀ m ∈ MsgType.login, ¬IsMsg m p

theorem aside_of_isMsg {m : MsgType} {p : Bytes} (hm : IsMsg m p) (hnot : m ∉ MsgType.login) :
    Aside p :=
  fun _ hmem hm' => hnot (hm.unique hm' ▸ hmem)

theorem aside_cons {m : MsgType} {r : Bytes} (hnot : m ∉ MsgType.login) : Aside (m.code :: r) :=
  aside_of_isMsg (m := m) rfl hnot

/-- The messages of the login that an end acts on, the password request apart. -/
def Role.heeds : Role → List MsgType
  | .server => [.serviceRequest, .userauthSuccess]
  | .client => [.serviceAccept, .userauthSuccess]

/-- A message of type `m` was handled. -/
def Heard (m : MsgType) (log : List Obs) : Prop := ∃ x p, Obs.handled x p ∈ log ∧ IsMsg m p

/-- The message `q` was sent. -/
def Said (q : Bytes) (log : List Obs) : Prop := ∃ b w, Obs.queued b none q w ∈ log

theorem Heard.mono {m : MsgType} {l l' : List Obs} (h : Heard m l) (hl : l <+: l') : Heard m l' := by
  obtain ⟨x, p, hmem, hm⟩ := h
  exact ⟨x, p, hl.subset hmem, hm⟩

theorem Said.mono {q : Bytes} {l l' : List Obs} (h : Said q l) (hl : l <+: l') : Said q l' := by
  obtain ⟨b, w, hmem⟩ := h
  exact ⟨b, w, hl.subset hmem⟩

variable [CryptoLib] {p q : Bytes} {c c' c1 : Conn} {owner : Option UInt32} {k : Cause}

/-- Nothing of the login was sent. -/
def Hushed (c c' : Conn) : Prop := Adds (fun _ _ q => Aside q) c.log c'.log

/-- `q` was sent, and nothing else. -/
structure Says (q : Bytes) (c c' : Conn) : Prop where
  said : Said q c'.log
  only : Adds (fun b _ q' => q' = q ∧ b.sendCipher.kind = c.now.sendCipher.kind) c.log c'.log

theorem Queues.voices (h : Queues none q c c') : Says q c c' := by
  obtain ⟨w, hlog⟩ := h.log
  refine ⟨⟨c.now, w, ?_⟩, h.adds ⟨rfl, rfl⟩⟩
  rw [hlog]
  exact List.mem_append_right _ (List.mem_singleton.mpr rfl)

theorem Queues.hushed (h : Queues owner q c c') (hq : Aside q) : Hushed c c' := h.adds hq

omit [CryptoLib] in
theorem Hushed.trans (h : Hushed c c1) (h' : Hushed c1 c') : Hushed c c' := Adds.trans h h'

-- ============================================================================
-- The footing of an end
-- ============================================================================

/-- The part of a connection that the login depends on. -/
structure Footing where
  authed : Bool
  /-- The first key exchange is done. -/
  first : Bool
  /-- A key exchange is running. -/
  running : Bool
  /-- What arrives is under an AEAD cipher. -/
  secret : Bool
  /-- The messages of the application are held back. -/
  gate : Bool

def Connection.footing (c : Connection) : Footing :=
  ⟨c.authed, c.firstKexDone, c.kex.isSome, c.recvCipher.kind.isAead, c.kexBlocksApp⟩

omit [CryptoLib] in
theorem footing_of_control {x y : Connection} (h : y.control = x.control) :
    y.footing = x.footing := by
  have hconn := congrArg (fun k : Control => (k.conn.authed, k.conn.firstKexDone,
    k.conn.kex.isSome, k.recvKind.isAead, k.conn.kexBlocksApp)) h
  exact congrArg (fun t : Bool × Bool × Bool × Bool × Bool =>
    (⟨t.1, t.2.1, t.2.2.1, t.2.2.2.1, t.2.2.2.2⟩ : Footing)) hconn

/-- The footing is the same, or an exchange was started. -/
inductive Keeps (f : Footing) : Footing → Prop where
  | same : Keeps f f
  | started : Keeps f { f with running := true, gate := true }

omit [CryptoLib] in
theorem Keeps.flags {f f' : Footing} (h : Keeps f f') :
    f'.authed = f.authed ∧ f'.first = f.first := by
  cases h with
  | same => exact ⟨rfl, rfl⟩
  | started => exact ⟨rfl, rfl⟩

theorem Starts.footing (h : Starts c c') :
    c'.now.footing = { c.now.footing with running := true, gate := true } := by
  cases h with
  | mk hq =>
    have h := footing_of_control hq.control
    exact congrArg (fun f : Footing => { f with running := true, gate := true }) h

theorem HangsUp.footing {reason : UInt32} {msg : String} (h : HangsUp reason msg c c') :
    c'.now.footing = c.now.footing := by
  cases h with
  | again hc => rfl
  | first hc hs =>
    have h := footing_of_control hs.control
    exact h

theorem Step.footing (h : Step k c c') : Keeps c.now.footing c'.now.footing := by
  rcases h.control with hc | ⟨-, hs⟩ | ⟨reason, msg, hh⟩
  · rw [footing_of_control hc]
    exact .same
  · rw [hs.footing]
    exact .started
  · rw [hh.footing]
    exact .same

theorem Joins.footing (h : Joins c c') : Keeps c.now.footing c'.now.footing := by
  cases h with
  | running hk => exact .same
  | started hk hs =>
    rw [hs.footing]
    exact .started

theorem Switches.footing {pk : PendingKeys} (h : Switches pk c c') :
    c'.now.footing = c.now.footing := by
  cases h with
  | mk hpk hq =>
    have h := footing_of_control hq.control
    exact h

theorem Denies.footing {cfg : ServerConfig} (h : Denies cfg c c') :
    c'.now.footing = c.now.footing := by
  cases h with
  | soft hlt hq => exact footing_of_control hq.control
  | hard hge hh => exact hh.footing

theorem Greets.footing (h : Greets c c') : c'.now.footing = c.now.footing := by
  cases h with
  | silent hr he => rfl
  | extInfo hr he hq => exact footing_of_control hq.control
  | service hr hq => exact footing_of_control hq.control

theorem Receives.footing (h : Receives p c c1) : c1.now.footing = c.now.footing :=
  footing_of_control h.control

-- ============================================================================
-- What a step sends
-- ============================================================================

omit [CryptoLib] in
/-- The only step that sends a message of the list is the open of a channel. -/
theorem Emits.aside {b : Connection} (h : Emits b k owner q) :
    Aside q ∨ IsMsg .channelOpen q ∧ ∃ host port, k = .call (.openDirectTcpip host port) := by
  cases h with
  | kexinit hk hm => exact .inl (aside_of_isMsg hm (by decide))
  | opening => exact .inr ⟨rfl, _, _, rfl⟩
  | disconnect | adjust | data | eof | close | confirm | failure => exact .inl (aside_cons (by decide))

theorem Step.voices (h : Step k c c') : Hushed c c' ∨ (c.now.role = .client ∧ c.now.authed = true ∧
    Adds (fun _ _ q => IsMsg .channelOpen q) c.log c'.log) := by
  by_cases hopen : ∃ host port, k = .call (.openDirectTcpip host port)
  · obtain ⟨host, port, rfl⟩ := hopen
    cases h with
    | openLocal hrole hauth ha hs =>
      exact .inr ⟨hrole, hauth, ha.adds.trans (hs.adds rfl)⟩
  · refine .inl (h.adds.mono fun b owner q hq => ?_)
    exact hq.2.aside.resolve_right fun hq => hopen hq.2

-- ============================================================================
-- What handling a packet does
-- ============================================================================

/-- What handling `p` means for the login. -/
inductive LoginEffect (p : Bytes) (c c' : Conn) : Prop where
  /-- Nothing. -/
  | aside (hp : ∀ m ∈ c.now.role.heeds, ¬IsMsg m p) (hf : Keeps c.now.footing c'.now.footing)
      (hq : Hushed c c')
  /-- The first key exchange is done; a client goes on to ask for the service. -/
  | first (hm : IsMsg .newkeys p) (hfirst : c.now.firstKexDone = false)
      (hf : c'.now.footing = { c.now.footing with first := true, running := false, secret := true })
      (haead : c.now.sendCipher.kind.isAead = true)
      (hq : c.now.role = .server ∧ Hushed c c' ∨
        c.now.role = .client ∧ Says Msg.serviceRequest c c')
  | again (hm : IsMsg .newkeys p) (hfirst : c.now.firstKexDone = true)
      (hf : c'.now.footing = { c.now.footing with running := false, secret := true, gate := false })
      (hq : Hushed c c')
  | service {name : String} (hrole : c.now.role = .server) (hm : IsMsg .serviceRequest p)
      (hf : c'.now.footing = c.now.footing) (hq : Says (Msg.serviceAccept name) c c')
  | credentials {cfg : ClientConfig} (hrole : c.now.role = .client)
      (hc : c.now.client = some cfg) (hm : IsMsg .serviceAccept p)
      (hf : c'.now.footing = c.now.footing)
      (hq : Says (Msg.passwordRequest cfg.username cfg.password) c c')
  | success (hm : IsMsg .userauthSuccess p)
      (hf : c'.now.footing = { c.now.footing with authed := true, gate := false })
      (hq : Hushed c c')
  | accept {cfg : ServerConfig} {user password : String} (hrole : c.now.role = .server)
      (hcfg : c.now.server = some cfg) (hm : Msg.passwordRequest user password <+: p)
      (hok : cfg.checkPassword user password = true)
      (hf : c'.now.footing = { c.now.footing with authed := true, gate := false })
      (hq : Says Msg.userauthSuccess c c')

omit [CryptoLib] in
/-- A message that no end acts on. -/
theorem unheeded {m : MsgType} {r : Role} (hm : IsMsg m p)
    (hnot : m ≠ .serviceRequest ∧ m ≠ .serviceAccept ∧ m ≠ .userauthSuccess) :
    ∀ m' ∈ r.heeds, ¬IsMsg m' p := by
  intro m' hmem hm'
  obtain rfl := hm.unique hm'
  cases r <;> simp_all [Role.heeds]

omit [CryptoLib] in
/-- The same, with more before it. -/
theorem Says.since (h : Says q c1 c') (hkind : c1.now.sendCipher.kind = c.now.sendCipher.kind)
    (hl : ∀ P, Adds P c.log c1.log) : Says q c c' :=
  ⟨h.said, (hl _).trans (h.only.mono fun _ _ _ hb => ⟨hb.1, hb.2.trans hkind⟩)⟩

omit [CryptoLib] in
/-- A message that is ignored means nothing to the end that ignores it. -/
theorem Ignores.unheeded (h : Ignores c.now p) : ∀ m ∈ c.now.role.heeds, ¬IsMsg m p := by
  cases h with
  | @passive m hm hmem =>
    apply Ssproxy.unheeded hm
    revert hmem
    cases m <;> decide
  | @notServer m hr hm hmem =>
    intro m' hmem' hm'
    obtain rfl := hm.unique hm'
    rw [hr] at hmem'
    revert hmem hmem'
    cases m <;> decide
  | notClient hr hm =>
    intro m' hmem' hm'
    obtain rfl := hm.unique hm'
    rw [hr] at hmem'
    revert hmem'
    decide
  | closeUnknown hm hch => exact Ssproxy.unheeded (IsMsg.of_prefix hm) (by decide)

omit [CryptoLib] in
theorem footing_recorded {x : Connection} {j k : KexState} {theirs : KexInit} {c2s s2c : String}
    (hk : x.kex = some j) : (x.recorded k theirs c2s s2c).footing = x.footing := by
  unfold Connection.footing recorded
  rw [hk]
  rfl

theorem Handles.loginEffect (h : Handles p c c') (hwf : WellFormed c) : LoginEffect p c c' := by
  have haside : ∀ {c1 : Conn}, Receives p c c1 → (∀ m ∈ c.now.role.heeds, ¬IsMsg m p) →
      Keeps c1.now.footing c'.now.footing → Hushed c1 c' → LoginEffect p c c' :=
    fun hr hp hf hq => .aside hp (hr.footing ▸ hf) (hr.adds.trans hq)
  have hsame : ∀ {x y : Connection}, y.footing = x.footing → Keeps x.footing y.footing := by
    intro x y hxy
    rw [hxy]
    exact .same
  have hrole : ∀ {c1 : Conn}, Receives p c c1 → c1.now.role = c.now.role :=
    fun hr => congrArg (·.role) hr.settings
  have hkind : ∀ {c1 : Conn}, Receives p c c1 → c1.now.sendCipher.kind = c.now.sendCipher.kind :=
    fun hr => congrArg (·.sendKind) hr.control
  cases h with
  | skip hr hi =>
    have hun := hi.unheeded
    rw [hrole hr] at hun
    exact haside hr hun .same (.refl _ _)
  | answer hr ha hq =>
    have hf := hsame (footing_of_control hq.control)
    cases ha with
    | service hs hm hn =>
      exact .service ((hrole hr).symm.trans hs) (IsMsg.of_prefix hm)
        ((footing_of_control hq.control).trans hr.footing)
        (hq.voices.since (hkind hr) fun _ => hr.adds)
    | credentials hs hc hm =>
      exact .credentials ((hrole hr).symm.trans hs)
        ((congrArg (·.client) hr.settings).symm.trans hc) hm
        ((footing_of_control hq.control).trans hr.footing)
        (hq.voices.since (hkind hr) fun _ => hr.adds)
    | «global» hm hw hm' =>
      refine haside hr (unheeded hm (by decide)) hf (hq.hushed ?_)
      rcases hm' with rfl | rfl
      · exact aside_cons (by decide)
      · exact aside_cons (by decide)
    | unknownType hauth hm ht =>
      exact haside hr (unheeded (IsMsg.of_prefix hm) (by decide)) hf (hq.hushed (aside_cons (by decide)))
    | request hm hw hch hid ht =>
      refine haside hr (unheeded (IsMsg.of_prefix hm) (by decide)) hf (hq.hushed ?_)
      rcases ht with rfl | rfl
      · exact aside_cons (by decide)
      · exact aside_cons (by decide)
    | ping hm =>
      exact haside hr (unheeded hm (by decide)) hf (hq.hushed (aside_cons (by decide)))
    | @unknown t hm ht =>
      refine haside hr ?_ hf (hq.hushed (aside_cons (by decide)))
      intro m _ hm'
      have hcode : m.code = t := Option.some.inj (hm'.symm.trans hm)
      subst hcode
      rw [MsgType.ofCode_code] at ht
      cases ht
  | kexinitServer hr hm hs hp hj hk hn =>
    refine haside hr (unheeded hm (by decide)) ?_ (hj.adds fun _ _ hm => aside_of_isMsg hm (by decide))
    rw [footing_recorded hk]
    exact hj.footing
  | @kexinitClient c1 c2 c' q theirs k c2s s2c pub hr hm hs hp hj hk hn hpub hq =>
    have hsent : Hushed c2 c' :=
      Queues.hushed (c := ⟨c2.now.recorded k theirs c2s s2c, c2.log⟩) hq (aside_cons (by decide))
    refine haside hr (unheeded hm (by decide)) ?_
      (Adds.trans (hj.adds fun _ _ hm => aside_of_isMsg hm (by decide)) hsent)
    rw [footing_of_control hq.control, footing_recorded hk]
    exact hj.footing
  | @ecdhInit c1 c2 c' x cfg qC hr hs hm hcfg hx hz hq pk hsw =>
    have hsent : Hushed c1 c2 := hq.adds (P := fun _ _ q => Aside q) (aside_cons (by decide))
    refine haside hr (unheeded (IsMsg.of_prefix hm) (by decide)) ?_
      (hsent.trans (hsw.adds (aside_cons (by decide))))
    have hfinished := footing_of_control hq.control
    exact hsame (hsw.footing.trans hfinished)
  | @ecdhReply c1 c' x ks sig qS pub secret hr hs hm hpub hsec hx hks hsig hz pk hsw =>
    have hrun : c1.now.kex.isSome = true := by
      rw [hx.kex]
      rfl
    refine haside hr (unheeded (IsMsg.of_prefix hm) (by decide)) ?_
      (hsw.adds (P := fun _ _ q => Aside q) (aside_cons (by decide)))
    rw [hsw.footing]
    apply hsame
    unfold Connection.footing
    rw [hrun]
    rfl
  | @newkeysFirst c1 c' pk hr hm hpk hf hg =>
    obtain ⟨hrun, hsent, hrecv⟩ := (hr.wellFormed hwf).kex.pending pk hpk
    have haead := (hr.wellFormed hwf).kex.switched hrun hsent
    have hlogged : ∀ P, Adds P c.log (c1.log ++ [.kexCompleted (c1.now.installRecv pk)]) :=
      fun _ => hr.adds.trans (.other rfl)
    have hcipher := hkind hr
    have hfirst : c.now.firstKexDone = false := (congrArg (·.first) hr.footing).symm.trans hf
    have hfoot : c'.now.footing
        = { c.now.footing with first := true, running := false, secret := true } := by
      rw [hg.footing, ← hr.footing, ← hrecv]
      rfl
    refine .first hm hfirst hfoot (hcipher ▸ haead) ?_
    cases hg with
    | silent hs he => exact .inl ⟨(hrole hr).symm.trans hs, hlogged _⟩
    | extInfo hs he hq =>
      exact .inl ⟨(hrole hr).symm.trans hs, (hlogged _).trans (hq.adds (aside_cons (by decide)))⟩
    | service hs hq => exact .inr ⟨(hrole hr).symm.trans hs, hq.voices.since hcipher hlogged⟩
  | @newkeysAgain c1 pk hr hm hpk hf =>
    obtain ⟨-, -, hrecv⟩ := (hr.wellFormed hwf).kex.pending pk hpk
    have hfirst : c.now.firstKexDone = true := (congrArg (·.first) hr.footing).symm.trans hf
    refine .again hm hfirst ?_ (hr.adds.trans (.other rfl))
    rw [← hr.footing, ← hrecv]
    rfl
  | userauthSuccess hr hm =>
    refine .success hm ?_ ((hr.adds.trans (.other rfl)).trans (.other rfl))
    rw [← hr.footing]
    rfl
  | @authAccept c1 c2 cfg user password hr hs hcfg hm hok hq =>
    have hlogged : ∀ P, Adds P c.log
        (c1.log ++ [.passwordChecked user password true] ++ [.authenticated c1.now]) :=
      fun _ => (hr.adds.trans (.other rfl)).trans (.other rfl)
    have hcipher := hkind hr
    have hsaid : Says Msg.userauthSuccess c c2 := hq.voices.since hcipher hlogged
    refine .accept ((hrole hr).symm.trans hs) ((congrArg (·.server) hr.settings).symm.trans hcfg)
      hm hok ?_ ⟨hsaid.said.mono (List.prefix_append _ _), hsaid.only.trans (.other rfl)⟩
    have hlogin := footing_of_control hq.control
    rw [← hr.footing]
    exact hlogin
  | @authReject c1 c' cfg user password hr hs hcfg hm hbad hd =>
    have hsent : Hushed c1 c' := (Adds.other rfl).trans
      (hd.adds (fun _ => aside_cons (by decide)) fun _ _ => aside_cons (by decide))
    have hfails := hd.footing
    exact haside hr (unheeded (IsMsg.of_prefix hm) (by decide)) (hsame hfails) hsent
  | authOther hr hs hcfg hm hd =>
    exact haside hr (unheeded hm (by decide)) (hsame hd.footing)
      (hd.adds (fun _ => aside_cons (by decide)) fun _ _ => aside_cons (by decide))
  | disconnect hr hm =>
    exact haside hr (unheeded hm (by decide)) .same (.other rfl)
  | openSession hr hm hauth ha =>
    exact haside hr (unheeded (IsMsg.of_prefix hm) (by decide)) (hsame (footing_of_control ha.control))
      (ha.adds.trans (.other rfl))
  | openDirect hr hm hauth ha =>
    exact haside hr (unheeded (IsMsg.of_prefix hm) (by decide)) (hsame (footing_of_control ha.control))
      (ha.adds.trans (.other rfl))
  | openConfirm hr hm hch =>
    exact haside hr (unheeded (IsMsg.of_prefix hm) (by decide)) .same (.other rfl)
  | openFail hr hm =>
    exact haside hr (unheeded (IsMsg.of_prefix hm) (by decide)) .same
      ((adds_withoutChannel _ _).trans (.other rfl))
  | windowAdjust hr hm hch =>
    exact haside hr (unheeded (IsMsg.of_prefix hm) (by decide)) .same (.refl _ _)
  | deliver hr hm hch hw =>
    refine haside hr ?_ .same (.other rfl)
    rcases hm with hm | ⟨code, hm⟩
    · exact unheeded (IsMsg.of_prefix hm) (by decide)
    · exact unheeded (IsMsg.of_prefix hm) (by decide)
  | peerEof hr hm hch =>
    exact haside hr (unheeded (IsMsg.of_prefix hm) (by decide)) .same (.other rfl)
  | peerEofUnknown hr hm hch =>
    exact haside hr (unheeded (IsMsg.of_prefix hm) (by decide)) .same (.other rfl)
  | peerClose hr hm hch =>
    exact haside hr (unheeded (IsMsg.of_prefix hm) (by decide)) .same (.refl _ _)

-- ============================================================================
-- Runs without a failure
-- ============================================================================

/-- A connection made from `setup` can be in state `c`, and nothing has failed. -/
def Setup.Attains (setup : Setup) (c : Conn) : Prop :=
  ∃ rng c0, Starts ⟨setup.blank rng, []⟩ c0 ∧ Beats c0 c

theorem Setup.Attains.reaches {setup : Setup} (h : setup.Attains c) : setup.Reaches c := by
  obtain ⟨rng, c0, hstart, hbeats⟩ := h
  exact ⟨rng, c0, hstart, hbeats.moves⟩

/-- What the login depends on is as it was. -/
structure Unmoved (c c' : Conn) : Prop where
  footing : c'.now.footing = c.now.footing
  settings : c'.now.settings = c.now.settings
  channels : c'.now.channels = c.now.channels
  log : c'.log = c.log

theorem Calm.cases (h : Calm c c') :
    (∃ k, Step k c c') ∨ (∃ p, Handles p c c') ∨ Unmoved c c' := by
  cases h with
  | quiet h =>
    cases h with
    | step h => exact .inl ⟨_, h⟩
    | handle h => exact .inr (.inl ⟨_, h⟩)
    | identWait hid hno => exact .inr (.inr ⟨rfl, rfl, rfl, rfl⟩)
    | identDone hid hs => exact .inr (.inr ⟨rfl, rfl, rfl, rfl⟩)
  | recv bytes => exact .inr (.inr ⟨rfl, rfl, rfl, rfl⟩)
  | own h => exact .inl ⟨_, h⟩

/-- The rule for runs without a failure. -/
theorem Setup.Attains.invariant {setup : Setup} {I : Conn → Prop} (h : setup.Attains c)
    (h0 : ∀ rng c0, Starts ⟨setup.blank rng, []⟩ c0 → I c0)
    (hstep : ∀ k c c', I c → Step k c c' → I c')
    (hhandle : ∀ p c c', WellFormed c → I c → Handles p c c' → I c')
    (hidle : ∀ c c', I c → Unmoved c c' → I c') : I c := by
  obtain ⟨rng, c0, hstart, hbeats⟩ := h
  have hcalms := hbeats.calms
  clear hbeats
  induction hcalms with
  | refl => exact h0 rng c0 hstart
  | tail hpre hlast ih =>
    rcases hlast.cases with ⟨k, hs⟩ | ⟨p, hh⟩ | hu
    · exact hstep k _ _ ih hs
    · exact hhandle p _ _ ((calms_moves hpre).wellFormed (setup.starts_wellFormed hstart)) ih hh
    · exact hidle _ _ ih hu

theorem Starts.nothing_handled {setup : Setup} {rng : Rng} {c0 : Conn} {x : Connection}
    (h : Starts ⟨setup.blank rng, []⟩ c0) : Obs.handled x p ∉ c0.log := by
  intro hmem
  have hold := h.extends.log.later.mem_handled hmem
  cases hold

-- ============================================================================
-- The first key exchange comes first
-- ============================================================================

/-- No login was handled before the first key exchange was done. -/
def Late (log : List Obs) : Prop :=
  ∀ x p, Obs.handled x p ∈ log → IsMsg .userauthSuccess p ∨ IsMsg .userauthRequest p →
    x.firstKexDone = true

omit [CryptoLib] in
theorem Late.mono {l l' : List Obs} (h : Late l') (hl : l <+: l') : Late l :=
  fun x p hmem => h x p (hl.subset hmem)

/-- How the flags of an end hang together. -/
structure Footing.Sure (f : Footing) (late : Prop) : Prop where
  first : f.running = false → f.first = true
  secret : f.secret = true → f.first = true
  authed : late → f.authed = true → f.first = true
  gate : late → f.authed = true → f.gate = true → f.running = true

omit [CryptoLib] in
theorem Footing.Sure.keeps {f f' : Footing} {late : Prop} (h : f.Sure late) (hk : Keeps f f') :
    f'.Sure late := by
  cases hk with
  | same => exact h
  | started => exact ⟨nofun, h.secret, h.authed, fun _ _ _ => rfl⟩

/-- A packet that came under an AEAD cipher came after the first key exchange. -/
def Covered (log : List Obs) : Prop :=
  ∀ x p, Obs.handled x p ∈ log → x.recvCipher.kind.isAead = true → x.firstKexDone = true

theorem Setup.Attains.sure {setup : Setup} (h : setup.Attains c) :
    c.now.footing.Sure (Late c.log) ∧ Covered c.log := by
  have hlate : ∀ {x y : Conn} {f : Footing}, x.log <+: y.log → f.Sure (Late x.log) →
      f.Sure (Late y.log) := fun hl hs =>
    ⟨hs.first, hs.secret, fun h => hs.authed (h.mono hl), fun h => hs.gate (h.mono hl)⟩
  refine h.invariant (I := fun c => c.now.footing.Sure (Late c.log) ∧ Covered c.log) ?_ ?_ ?_ ?_
  · intro rng c0 hstart
    rw [hstart.footing]
    refine ⟨?_, fun x p hmem => absurd hmem hstart.nothing_handled⟩
    cases setup <;> exact ⟨nofun, nofun, fun _ => nofun, fun _ => nofun⟩
  · rintro k c c' ⟨hs, hc⟩ hstep
    exact ⟨hlate hstep.extends.log.isPrefix (hs.keeps hstep.footing),
      fun x p hmem => hc x p (hstep.mem_handled hmem)⟩
  · rintro p c c' hwf ⟨hold, hc⟩ hh
    refine ⟨?_, fun x q hmem haead => ?_⟩
    swap
    · rcases hh.mem_handled hmem with hmem | ⟨rfl, -⟩
      · exact hc x q hmem haead
      · exact hold.secret haead
    have hs := hlate hh.isPrefix hold
    cases hh.loginEffect hwf with
    | aside hp hf hq => exact hs.keeps hf
    | first hm hfirst hf haead hq =>
      have hearly : ¬c.now.footing.first = true := by
        show ¬c.now.firstKexDone = true
        rw [hfirst]
        decide
      rw [hf]
      exact ⟨fun _ => rfl, fun _ => rfl, fun _ _ => rfl,
        fun hl ha _ => absurd (hs.authed hl ha) hearly⟩
    | again hm hfirst hf hq =>
      rw [hf]
      exact ⟨fun _ => hfirst, fun _ => hfirst, fun _ _ => hfirst, fun _ _ => nofun⟩
    | service hrole hm hf hq => exact hf ▸ hs
    | credentials hrole hc hm hf hq => exact hf ▸ hs
    | success hm hf hq =>
      rw [hf]
      exact ⟨hs.first, hs.secret, fun hl _ => hl _ _ hh.handled (.inl hm), fun _ _ => nofun⟩
    | accept hrole hcfg hm hok hf hq =>
      rw [hf]
      exact ⟨hs.first, hs.secret, fun hl _ => hl _ _ hh.handled (.inr (IsMsg.of_prefix hm)),
        fun _ _ => nofun⟩
  · rintro c c' hs hu
    rw [hu.footing, hu.log]
    exact hs

-- ============================================================================
-- What was handled was answered
-- ============================================================================

/-- Each end does its part of the login. -/
structure Prompt (c : Conn) : Prop where
  asks : c.now.role = .client → c.now.firstKexDone = true → Said Msg.serviceRequest c.log
  grants : c.now.role = .server → Heard .serviceRequest c.log →
    ∃ name, Said (Msg.serviceAccept name) c.log
  presents : c.now.role = .client → Heard .serviceAccept c.log → ∃ cfg, c.now.client = some cfg ∧
    Said (Msg.passwordRequest cfg.username cfg.password) c.log
  enters : Heard .userauthSuccess c.log → c.now.authed = true
  welcomes : c.now.authed = true → Heard .userauthSuccess c.log ∨
    c.now.role = .server ∧ Said Msg.userauthSuccess c.log

omit [CryptoLib] in
/-- Nothing more was handled, and the flags are as they were. -/
theorem Prompt.later (h : Prompt c) (hl : c.log <+: c'.log)
    (hheard : ∀ x p, Obs.handled x p ∈ c'.log → Obs.handled x p ∈ c.log)
    (hs : c'.now.settings = c.now.settings) (ha : c'.now.authed = c.now.authed)
    (hf : c'.now.firstKexDone = c.now.firstKexDone) : Prompt c' := by
  have hrole : c'.now.role = c.now.role := congrArg (·.role) hs
  have hclient : c'.now.client = c.now.client := congrArg (·.client) hs
  have hback : ∀ m, Heard m c'.log → Heard m c.log := by
    rintro m ⟨x, p, hmem, hm⟩
    exact ⟨x, p, hheard x p hmem, hm⟩
  refine ⟨?_, ?_, ?_, ?_, ?_⟩
  · rw [hrole, hf]
    exact fun hr hfirst => (h.asks hr hfirst).mono hl
  · rw [hrole]
    exact fun hr hm => (h.grants hr (hback _ hm)).imp fun _ hsaid => hsaid.mono hl
  · rw [hrole, hclient]
    exact fun hr hm => (h.presents hr (hback _ hm)).imp fun _ hsaid => hsaid.imp_right (·.mono hl)
  · rw [ha]
    exact fun hm => h.enters (hback _ hm)
  · rw [ha, hrole]
    exact fun hauth => (h.welcomes hauth).imp (·.mono hl) fun hw => hw.imp_right (·.mono hl)

theorem Handles.heard {m : MsgType} (h : Handles p c c') (hm : Heard m c'.log) :
    Heard m c.log ∨ IsMsg m p := by
  obtain ⟨x, q, hmem, hm⟩ := hm
  rcases h.mem_handled hmem with hold | ⟨-, rfl⟩
  · exact .inl ⟨x, q, hold, hm⟩
  · exact .inr hm

namespace LoginEffect

omit [CryptoLib]

/-- A message that an end acts on is acted on. -/
theorem of_serviceRequest (h : LoginEffect p c c') (hrole : c.now.role = .server)
    (hm : IsMsg .serviceRequest p) : ∃ name, Said (Msg.serviceAccept name) c'.log := by
  cases h with
  | aside hp hf hq => exact absurd hm (hp _ (by rw [hrole]; decide))
  | service hs hm' hf hq => exact ⟨_, hq.said⟩
  | first hm' | again hm' | success hm' => cases hm.unique hm'
  | credentials hs hc hm' => cases hm.unique hm'
  | accept hs hcfg hm' => cases hm.unique (IsMsg.of_prefix hm')

theorem of_serviceAccept (h : LoginEffect p c c') (hrole : c.now.role = .client)
    (hm : IsMsg .serviceAccept p) : ∃ cfg, c.now.client = some cfg ∧
      Said (Msg.passwordRequest cfg.username cfg.password) c'.log := by
  cases h with
  | aside hp hf hq => exact absurd hm (hp _ (by rw [hrole]; decide))
  | credentials hs hc hm' hf hq => exact ⟨_, hc, hq.said⟩
  | first hm' | again hm' | success hm' => cases hm.unique hm'
  | service hs hm' => cases hm.unique hm'
  | accept hs hcfg hm' => cases hm.unique (IsMsg.of_prefix hm')

theorem of_success (h : LoginEffect p c c') (hm : IsMsg .userauthSuccess p) :
    c'.now.authed = true := by
  cases h with
  | aside hp hf hq =>
    refine absurd hm (hp _ ?_)
    cases c.now.role <;> decide
  | success hm' hf hq => exact congrArg (·.authed) hf
  | first hm' | again hm' => cases hm.unique hm'
  | service hs hm' => cases hm.unique hm'
  | credentials hs hc hm' => cases hm.unique hm'
  | accept hs hcfg hm' => cases hm.unique (IsMsg.of_prefix hm')

/-- The first key exchange is done: it was, or this is the moment. -/
theorem of_first (h : LoginEffect p c c') (hrole : c.now.role = .client)
    (hfirst : c'.now.firstKexDone = true) :
    c.now.firstKexDone = true ∨ Said Msg.serviceRequest c'.log := by
  have hold : c'.now.footing.first = c.now.footing.first → c.now.firstKexDone = true :=
    fun hsame => hsame.symm.trans hfirst
  cases h with
  | aside hp hf hq => exact .inl (hold hf.flags.2)
  | first hm hfirst hf haead hq =>
    rcases hq with ⟨hs, -⟩ | ⟨-, hq⟩
    · cases hrole.symm.trans hs
    · exact .inr hq.said
  | again hm hf => exact .inl hf
  | service hs hm hf => exact .inl (hold (congrArg (·.first) hf))
  | credentials hs hc hm hf => exact .inl (hold (congrArg (·.first) hf))
  | success hm hf => exact .inl (hold (congrArg (·.first) hf))
  | accept hs hcfg hm hok hf => exact .inl (hold (congrArg (·.first) hf))

/-- The peer is authenticated: it was, or this is the moment. -/
theorem of_authed (h : LoginEffect p c c') (hauth : c'.now.authed = true) :
    c.now.authed = true ∨ IsMsg .userauthSuccess p ∨
      (c.now.role = .server ∧ Said Msg.userauthSuccess c'.log ∧ ∃ cfg user password,
        c.now.server = some cfg ∧ Msg.passwordRequest user password <+: p ∧
          cfg.checkPassword user password = true) := by
  have hold : c'.now.footing.authed = c.now.footing.authed → c.now.authed = true :=
    fun hsame => hsame.symm.trans hauth
  cases h with
  | aside hp hf hq => exact .inl (hold hf.flags.1)
  | first hm hfirst hf => exact .inl (hold (congrArg (·.authed) hf))
  | again hm hfirst hf => exact .inl (hold (congrArg (·.authed) hf))
  | service hs hm hf => exact .inl (hold (congrArg (·.authed) hf))
  | credentials hs hc hm hf => exact .inl (hold (congrArg (·.authed) hf))
  | success hm => exact .inr (.inl hm)
  | accept hs hcfg hm hok hf hq => exact .inr (.inr ⟨hs, hq.said, _, _, _, hcfg, hm, hok⟩)

end LoginEffect

theorem Handles.prompt (h : Handles p c c') (hwf : WellFormed c) (hc : Prompt c) : Prompt c' := by
  have he := h.loginEffect hwf
  have hl := h.isPrefix
  obtain ⟨c1, hr, h1⟩ := h.handling
  have hrole : c'.now.role = c.now.role := congrArg (·.role) (h1.settings.trans hr.settings)
  have hclient : c'.now.client = c.now.client := congrArg (·.client) (h1.settings.trans hr.settings)
  refine ⟨?_, ?_, ?_, ?_, ?_⟩
  · intro hs hfirst
    rw [hrole] at hs
    exact (he.of_first hs hfirst).elim (fun hold => (hc.asks hs hold).mono hl) id
  · intro hs hm
    rw [hrole] at hs
    rcases h.heard hm with hold | hm
    · exact (hc.grants hs hold).imp fun _ hsaid => hsaid.mono hl
    · exact he.of_serviceRequest hs hm
  · intro hs hm
    rw [hrole] at hs
    rw [hclient]
    rcases h.heard hm with hold | hm
    · exact (hc.presents hs hold).imp fun _ hsaid => hsaid.imp_right (·.mono hl)
    · exact he.of_serviceAccept hs hm
  · intro hm
    rcases h.heard hm with hold | hm
    · exact h.rises.authed (hc.enters hold)
    · exact he.of_success hm
  · intro hauth
    rw [hrole]
    rcases he.of_authed hauth with hold | hm | ⟨hs, hsaid, -⟩
    · exact (hc.welcomes hold).imp (·.mono hl) fun hw => hw.imp_right (·.mono hl)
    · exact .inl ⟨_, p, h.handled, hm⟩
    · exact .inr ⟨hs, hsaid⟩

/-- An end that has not failed has answered everything. -/
theorem Setup.Attains.prompt {setup : Setup} (h : setup.Attains c) : Prompt c := by
  refine h.invariant ?_ ?_ ?_ ?_
  · intro rng c0 hstart
    have hnone : ∀ m, ¬Heard m c0.log := by
      rintro m ⟨x, p, hmem, -⟩
      exact hstart.nothing_handled hmem
    have hfoot := hstart.footing
    have hauth : c0.now.authed = false := by
      have h := congrArg (·.authed) hfoot
      cases setup <;> exact h
    have hfirst : c0.now.firstKexDone = false := by
      have h := congrArg (·.first) hfoot
      cases setup <;> exact h
    refine ⟨fun _ hf => ?_, fun _ hm => absurd hm (hnone _), fun _ hm => absurd hm (hnone _),
      fun hm => absurd hm (hnone _), fun ha => ?_⟩
    · cases hfirst.symm.trans hf
    · cases hauth.symm.trans ha
  · intro k c c' hc hs
    obtain ⟨ha, hf⟩ := hs.footing.flags
    exact hc.later hs.extends.log.isPrefix (fun _ _ => hs.mem_handled) hs.extends.settings ha hf
  · exact fun p c c' hwf hc hh => hh.prompt hwf hc
  · intro c c' hc hu
    exact hc.later (hu.log ▸ List.prefix_refl _) (fun x p hmem => hu.log ▸ hmem) hu.settings
      (congrArg (·.authed) hu.footing) (congrArg (·.first) hu.footing)

/-- A server that has handled a correct password has let the peer in. -/
theorem Setup.Attains.admits {cfg : ServerConfig} {x : Connection} {user password : String}
    (h : (Setup.server cfg).Attains c)
    (hmem : Obs.handled x (Msg.passwordRequest user password) ∈ c.log)
    (hlen : (Msg.passwordRequest user password).length < 2 ^ 32)
    (hok : cfg.checkPassword user password = true) : c.now.authed = true := by
  obtain ⟨rng, c0, hstart, hbeats⟩ := h
  have hsettings : ∀ {c : Conn}, Beats c0 c →
      c.now.settings = ((Setup.server cfg).blank rng).settings :=
    fun hb => (Moves.settings hb.moves).trans hstart.extends.settings
  induction hbeats with
  | refl => exact absurd hmem hstart.nothing_handled
  | tail hpre hlast ih =>
    have hrises := calms_moves hlast.calms
    cases hlast with
    | hop hop =>
      cases hop with
      | step hs hk => exact hs.rises.authed (ih (hs.mem_handled hmem))
      | serve hid hh ha =>
        rcases hh.mem_handled hmem with hold | ⟨-, rfl⟩
        · exact hh.rises.authed (ih hold)
        · exact ha cfg user password (congrArg (·.role) (hsettings hpre))
            (congrArg (·.server) (hsettings hpre)) rfl hlen hok
      | identWait hid hno => exact ih hmem
      | identDone hid hs => exact ih hmem
    | drain hd =>
      rw [hd.log] at hmem
      exact hrises.rises.authed (ih hmem)
    | recv bytes => exact ih hmem

-- ============================================================================
-- What was sent has its reason
-- ============================================================================

/-- Why `c` could send `q` of the login in state `b`.  A reply is sent with the keys
    in place when the request was handled. -/
inductive Grounds (c : Conn) (b : Connection) : Bytes → Prop where
  | request (hrole : c.now.role = .client) (haead : b.sendCipher.kind.isAead = true) :
      Grounds c b Msg.serviceRequest
  | service {name : String} {x : Connection} {p : Bytes} (hrole : c.now.role = .server)
      (hmem : Obs.handled x p ∈ c.log) (hm : IsMsg .serviceRequest p)
      (haead : x.firstKexDone = true → b.sendCipher.kind.isAead = true) :
      Grounds c b (Msg.serviceAccept name)
  | credentials {cfg : ClientConfig} {x : Connection} {p : Bytes} (hrole : c.now.role = .client)
      (hc : c.now.client = some cfg) (hmem : Obs.handled x p ∈ c.log)
      (hm : IsMsg .serviceAccept p)
      (haead : x.firstKexDone = true → b.sendCipher.kind.isAead = true) :
      Grounds c b (Msg.passwordRequest cfg.username cfg.password)
  | success {x : Connection} {p : Bytes} (hrole : c.now.role = .server)
      (hauth : c.now.authed = true) (hmem : Obs.handled x p ∈ c.log)
      (hm : IsMsg .userauthRequest p)
      (haead : x.firstKexDone = true → b.sendCipher.kind.isAead = true) :
      Grounds c b Msg.userauthSuccess
  | opening {q : Bytes} (hrole : c.now.role = .client) (hauth : c.now.authed = true)
      (hm : IsMsg .channelOpen q) : Grounds c b q

omit [CryptoLib] in
theorem Grounds.mono {b : Connection} (h : Grounds c b q) (hs : c'.now.settings = c.now.settings)
    (ha : c.now.authed = true → c'.now.authed = true) (hl : c.log <+: c'.log) :
    Grounds c' b q := by
  have hrole : c'.now.role = c.now.role := congrArg (·.role) hs
  have hclient : c'.now.client = c.now.client := congrArg (·.client) hs
  cases h with
  | request hr haead => exact .request (hrole.trans hr) haead
  | service hr hmem hm haead => exact .service (hrole.trans hr) (hl.subset hmem) hm haead
  | credentials hr hc hmem hm haead =>
    exact .credentials (hrole.trans hr) (hclient.trans hc) (hl.subset hmem) hm haead
  | success hr hauth hmem hm haead =>
    exact .success (hrole.trans hr) (ha hauth) (hl.subset hmem) hm haead
  | opening hr hauth hm => exact .opening (hrole.trans hr) (ha hauth) hm

/-- Whatever an end has sent or become has its reason in what it has handled. -/
structure Grounded (c : Conn) : Prop where
  admitted : Admitted c → Heard .userauthSuccess c.log ∨
    ∃ cfg, c.now.server = some cfg ∧ Presented cfg c.log
  sent : ∀ b owner q w, Obs.queued b owner q w ∈ c.log → Aside q ∨ Grounds c b q

omit [CryptoLib] in
theorem Presented.mono {cfg : ServerConfig} {l l' : List Obs} (h : Presented cfg l)
    (hl : l <+: l') : Presented cfg l' := by
  obtain ⟨x, hx, hrest⟩ := h
  exact ⟨x, mem_handledPackets.mpr (hl.subset (mem_handledPackets.mp hx)), hrest⟩

omit [CryptoLib] in
/-- New messages, each with its reason, and nobody admitted without one. -/
theorem Grounded.next (h : Grounded c) (hs : c'.now.settings = c.now.settings)
    (ha : c.now.authed = true → c'.now.authed = true) (hl : c.log <+: c'.log)
    (hlets : Admitted c' → Admitted c ∨ Heard .userauthSuccess c'.log ∨
      ∃ cfg, c'.now.server = some cfg ∧ Presented cfg c'.log)
    (hq : Adds (fun b _ q => Aside q ∨ Grounds c' b q) c.log c'.log) : Grounded c' := by
  have hserver : c'.now.server = c.now.server := congrArg (·.server) hs
  refine ⟨fun hin => ?_, fun b owner q w hmem => ?_⟩
  · rcases hlets hin with hold | hnew
    · refine (h.admitted hold).imp (·.mono hl) ?_
      rintro ⟨cfg, hcfg, hp⟩
      exact ⟨cfg, hserver.trans hcfg, hp.mono hl⟩
    · exact hnew
  · rcases hq b owner q w hmem with hold | hnew
    · exact (h.sent b owner q w hold).imp_right (·.mono hs ha hl)
    · exact hnew

omit [CryptoLib] in
theorem LoginEffect.grounds (h : LoginEffect p c c') (hwf : WellFormed c)
    (hs : c'.now.settings = c.now.settings) (hmem : Obs.handled c.now p ∈ c'.log) :
    Adds (fun b _ q => Aside q ∨ Grounds c' b q) c.log c'.log := by
  have hrole : c'.now.role = c.now.role := congrArg (·.role) hs
  have hclient : c'.now.client = c.now.client := congrArg (·.client) hs
  have haead : ∀ b : Connection, b.sendCipher.kind = c.now.sendCipher.kind →
      c.now.firstKexDone = true → b.sendCipher.kind.isAead = true :=
    fun b hb hf => hb ▸ (hwf.encrypted hf).send.2
  cases h with
  | aside hp hf hq => exact hq.mono fun _ _ _ => .inl
  | first hm hfirst hf hsend hq =>
    rcases hq with ⟨-, hq⟩ | ⟨hr, hq⟩
    · exact hq.mono fun _ _ _ => .inl
    · refine hq.only.mono fun b _ q hb => .inr ?_
      rw [hb.1]
      exact .request (hrole.trans hr) (hb.2 ▸ hsend)
  | again hm hfirst hf hq => exact hq.mono fun _ _ _ => .inl
  | service hr hm hf hq =>
    refine hq.only.mono fun b _ q hb => .inr ?_
    rw [hb.1]
    exact .service (hrole.trans hr) hmem hm (haead b hb.2)
  | credentials hr hc hm hf hq =>
    refine hq.only.mono fun b _ q hb => .inr ?_
    rw [hb.1]
    exact .credentials (hrole.trans hr) (hclient.trans hc) hmem hm (haead b hb.2)
  | success hm hf hq => exact hq.mono fun _ _ _ => .inl
  | accept hr hcfg hm hok hf hq =>
    refine hq.only.mono fun b _ q hb => .inr ?_
    rw [hb.1]
    exact .success (hrole.trans hr) (congrArg (·.authed) hf) hmem (IsMsg.of_prefix hm) (haead b hb.2)

theorem Handles.grounded (h : Handles p c c') (hwf : WellFormed c) (hc : Grounded c) :
    Grounded c' := by
  obtain ⟨c1, hr, h1⟩ := h.handling
  have hs : c'.now.settings = c.now.settings := h1.settings.trans hr.settings
  have hserver : c'.now.server = c.now.server := congrArg (·.server) hs
  refine hc.next hs h.rises.authed h.isPrefix (fun hin => ?_)
    ((h.loginEffect hwf).grounds hwf hs h.handled)
  rcases h.admitted hin with hold | hm | ⟨cfg, user, password, hcfg, hm, hok⟩
  · exact .inl hold
  · exact .inr (.inl ⟨_, p, h.handled, hm⟩)
  · exact .inr (.inr ⟨cfg, hserver.trans hcfg, (c.now, p), mem_handledPackets.mpr h.handled,
      user, password, hm, hok⟩)

/-- Whatever an end that has not failed has sent or become has its reason. -/
theorem Setup.Attains.grounded {setup : Setup} (h : setup.Attains c) : Grounded c := by
  refine h.invariant ?_ ?_ ?_ ?_
  · intro rng c0 hstart
    refine ⟨fun hin => ?_, fun b owner q w hmem => ?_⟩
    · have hblank : ¬Admitted ⟨setup.blank rng, []⟩ := by
        rintro (h | h | h | h) <;> cases setup <;> cases h
      exact absurd (hstart.idle.admitted hin) hblank
    · rcases hstart.adds (P := fun _ _ q => Aside q)
        (fun _ _ _ hm => aside_of_isMsg hm (by decide)) b owner q w hmem with hold | hnew
      · cases hold
      · exact .inl hnew
  · intro k c c' hc hs
    refine hc.next hs.extends.settings hs.rises.authed hs.extends.log.isPrefix
      (fun hin => .inl (hs.admitted hin)) ?_
    rcases hs.voices with hq | ⟨hrole, hauth, hq⟩
    · exact hq.mono fun _ _ _ => .inl
    · have hrole' : c'.now.role = c.now.role := congrArg (·.role) hs.extends.settings
      exact hq.mono fun b _ q hm => .inr (.opening (hrole'.trans hrole) (hs.rises.authed hauth) hm)
  · exact fun p c c' hwf hc hh => hh.grounded hwf hc
  · intro c c' hc hu
    have hauth : c'.now.authed = c.now.authed := congrArg (·.authed) hu.footing
    refine hc.next hu.settings (fun ha => hauth.trans ha) (hu.log ▸ List.prefix_refl _)
      (fun hin => .inl (hin.before ⟨hauth, hu.channels, fun o ho _ => hu.log ▸ ho⟩)) ?_
    rw [hu.log]
    exact .refl _ _

end Ssproxy
