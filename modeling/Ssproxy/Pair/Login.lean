/-
  Ssproxy.Pair.Login

  The login over a link.  Nobody is admitted without the right password, the
  password never crosses the link in the clear (`run_login`), and with the right
  password the two ends do not get stuck on their way there (`run_settles`).
-/

import Ssproxy.Pair.Ladder
import Ssproxy.Pair.Sync

namespace Ssproxy

open Lib Wire Connection Relation

variable {p q : Bytes} {b x : Connection} {owner : Option UInt32} {w : Bytes} {l l' : List Obs}

-- ============================================================================
-- Packets of two histories
-- ============================================================================

/-- What was handled was sent, with the same key. -/
theorem queued_of_handled (h : openedPackets l <+: sealedPackets l')
    (hmem : Obs.handled x p ∈ l) : ∃ b owner w, Obs.queued b owner p w ∈ l' ∧
      x.recvLine = b.sendLine := by
  have hopened : (x.recvLine, p) ∈ openedPackets l :=
    List.mem_map.mpr ⟨(x, p), mem_handledPackets.mpr hmem, rfl⟩
  obtain ⟨i, hi, hlabel⟩ := List.mem_map.mp (h.subset hopened)
  obtain ⟨o, ho, hpacket⟩ := List.mem_filterMap.mp hi
  cases o with
  | queued b owner payload w =>
    cases hpacket
    obtain ⟨hline, hpayload⟩ := Prod.mk.inj hlabel
    subst hpayload
    exact ⟨b, owner, w, ho, hline.symm⟩
  | _ => cases hpacket

/-- When everything was handled, what was sent was handled. -/
theorem handled_of_queued (h : openedPackets l = sealedPackets l')
    (hmem : Obs.queued b owner q w ∈ l') : ∃ x, Obs.handled x q ∈ l := by
  have hsealed : (b.sendLine, q) ∈ sealedPackets l' :=
    List.mem_map.mpr ⟨⟨b, q, w⟩, List.mem_filterMap.mpr ⟨_, hmem, rfl⟩, rfl⟩
  rw [← h] at hsealed
  obtain ⟨⟨x, p⟩, hx, hlabel⟩ := List.mem_map.mp hsealed
  obtain ⟨-, hpayload⟩ := Prod.mk.inj hlabel
  subst hpayload
  exact ⟨x, mem_handledPackets.mp hx⟩

/-- A password request has one reading. -/
theorem passwordRequest_prefix {user password user' password' : String}
    (h : Msg.passwordRequest user password <+: Msg.passwordRequest user' password')
    (hlen : (Msg.passwordRequest user' password').length < 2 ^ 32) :
    user = user' ∧ password = password' := by
  have hsizes := h.length_le
  obtain ⟨r, hr⟩ := h
  simp only [Msg.passwordRequest, putStr, putBytes, List.length_cons, List.length_append]
    at hsizes hlen
  simp only [Msg.passwordRequest, putStr, List.cons_append, List.append_assoc] at hr
  obtain ⟨-, hr⟩ := List.cons.inj hr
  obtain ⟨huser, hr⟩ := putBytes_append_inj (by omega) (by omega) hr
  have hr := List.append_cancel_left (List.append_cancel_left (List.append_cancel_left hr))
  rw [← List.append_nil (putBytes (strBytes password'))] at hr
  obtain ⟨hpassword, -⟩ := putBytes_append_inj (by omega) (by omega) hr
  exact ⟨strBytes_injective huser, strBytes_injective hpassword⟩

-- ============================================================================
-- What one end hears of the other
-- ============================================================================

/-- What `y` has handled is what `x` has sent, and `x` had its reasons. -/
structure Hears (x y : Conn) : Prop where
  opened : openedPackets y.log <+: sealedPackets x.log
  grounded : Grounded x
  covered : Covered y.log

/-- A message of the login that was heard was sent for a reason.  When it was sent
    under an AEAD cipher, the first key exchange was done when it was handled. -/
theorem Hears.grounds {u v : Conn} (h : Hears u v) (hmem : Obs.handled x p ∈ v.log)
    {m : MsgType} (hm : IsMsg m p) (hlogin : m ∈ MsgType.login) :
    ∃ b, Grounds u b p ∧ (b.sendCipher.kind.isAead = true → x.firstKexDone = true) := by
  obtain ⟨b, owner, w, hq, hline⟩ := queued_of_handled h.opened hmem
  have hcipher : x.recvCipher = b.sendCipher := congrArg (fun l => l.2.1) hline
  refine ⟨b, (h.grounded.sent b owner p w hq).resolve_left fun ha => ha m hlogin hm, fun haead => ?_⟩
  apply h.covered x p hmem
  rw [hcipher]
  exact haead

/-- Two ends that hear each other. -/
structure Mutual (s c : Conn) : Prop where
  server : s.now.role = .server
  client : c.now.role = .client
  up : Hears c s
  down : Hears s c

namespace Mutual

variable {s c : Conn} {m : MsgType}

/-- The client asks for the service after the first key exchange. -/
theorem of_serviceRequest (h : Mutual s c) (hmem : Obs.handled x p ∈ s.log)
    (hm : IsMsg .serviceRequest p) : x.firstKexDone = true := by
  obtain ⟨b, hg, hfirst⟩ := h.up.grounds hmem hm (by decide)
  cases hg with
  | request hr haead => exact hfirst haead
  | service hr => cases hr.symm.trans h.client
  | credentials => cases hm.unique rfl
  | success hr => cases hr.symm.trans h.client
  | opening hr ha hm' => cases hm.unique hm'

/-- So it hears of the service after that. -/
theorem of_serviceAccept (h : Mutual s c) (hmem : Obs.handled x p ∈ c.log)
    (hm : IsMsg .serviceAccept p) : x.firstKexDone = true := by
  obtain ⟨b, hg, hfirst⟩ := h.down.grounds hmem hm (by decide)
  cases hg with
  | service hr hasked hask haead => exact hfirst (haead (h.of_serviceRequest hasked hask))
  | request hr => cases hr.symm.trans h.server
  | credentials hr => cases hr.symm.trans h.server
  | success => cases hm.unique rfl
  | opening hr ha hm' => cases hm.unique hm'

/-- The server is shown the credentials of the client, after the first exchange. -/
theorem of_userauthRequest (h : Mutual s c) (hmem : Obs.handled x p ∈ s.log)
    (hm : IsMsg .userauthRequest p) : x.firstKexDone = true ∧
      ∃ cfg, c.now.client = some cfg ∧ p = Msg.passwordRequest cfg.username cfg.password := by
  obtain ⟨b, hg, hfirst⟩ := h.up.grounds hmem hm (by decide)
  cases hg with
  | credentials hr hc hgot hgo haead =>
    exact ⟨hfirst (haead (h.of_serviceAccept hgot hgo)), _, hc, rfl⟩
  | request => cases hm.unique rfl
  | service hr => cases hr.symm.trans h.client
  | success hr => cases hr.symm.trans h.client
  | opening hr ha hm' => cases hm.unique hm'

/-- The client hears of its success from a server that has let it in. -/
theorem of_userauthSuccess (h : Mutual s c) (hmem : Obs.handled x p ∈ c.log)
    (hm : IsMsg .userauthSuccess p) : x.firstKexDone = true ∧ s.now.authed = true := by
  obtain ⟨b, hg, hfirst⟩ := h.down.grounds hmem hm (by decide)
  cases hg with
  | success hr hauth hasked hask haead =>
    exact ⟨hfirst (haead (h.of_userauthRequest hasked hask).1), hauth⟩
  | request hr => cases hr.symm.trans h.server
  | service => cases hm.unique rfl
  | credentials hr => cases hr.symm.trans h.server
  | opening hr ha hm' => cases hm.unique hm'

/-- A server is told of no success, and a client is asked for no password. -/
theorem no_success (h : Mutual s c) : ¬Heard .userauthSuccess s.log := by
  rintro ⟨x, p, hmem, hm⟩
  obtain ⟨b, hg, -⟩ := h.up.grounds hmem hm (by decide)
  cases hg with
  | success hr => cases hr.symm.trans h.client
  | request => cases hm.unique rfl
  | service => cases hm.unique rfl
  | credentials => cases hm.unique rfl
  | opening hr ha hm' => cases hm.unique hm'

theorem no_request (h : Mutual s c) : ¬Heard .userauthRequest c.log := by
  rintro ⟨x, p, hmem, hm⟩
  obtain ⟨b, hg, -⟩ := h.down.grounds hmem hm (by decide)
  cases hg with
  | credentials hr => cases hr.symm.trans h.server
  | request => cases hm.unique rfl
  | service => cases hm.unique rfl
  | success => cases hm.unique rfl
  | opening hr ha hm' => cases hm.unique hm'

theorem late (h : Mutual s c) : Late s.log ∧ Late c.log := by
  refine ⟨fun x p hmem hm => ?_, fun x p hmem hm => ?_⟩
  · rcases hm with hm | hm
    · exact absurd ⟨x, p, hmem, hm⟩ h.no_success
    · exact (h.of_userauthRequest hmem hm).1
  · rcases hm with hm | hm
    · exact (h.of_userauthSuccess hmem hm).1
    · exact absurd ⟨x, p, hmem, hm⟩ h.no_request

/-- The password goes out under an AEAD cipher. -/
theorem veiled (h : Mutual s c) (hmem : Obs.queued b owner q w ∈ c.log)
    (hm : IsMsg .userauthRequest q) : b.sendCipher.kind.isAead = true := by
  have hg := (h.up.grounded.sent b owner q w hmem).resolve_left fun ha => ha _ (by decide) hm
  cases hg with
  | credentials hr hc hgot hgo haead => exact haead (h.of_serviceAccept hgot hgo)
  | request => cases hm.unique rfl
  | service => cases hm.unique rfl
  | success => cases hm.unique rfl
  | opening hr ha hm' => cases hm.unique hm'

/-- Nobody is admitted without the right password. -/
theorem admitted {server : ServerConfig} {client : ClientConfig} (h : Mutual s c)
    (hserver : s.now.server = some server) (hclient : c.now.client = some client)
    (hnone : c.now.server = none) (hfit : LengthsFit c.log) :
    (Admitted s → server.checkPassword client.username client.password = true) ∧
      (Admitted c → s.now.authed = true) := by
  refine ⟨fun hin => ?_, fun hin => ?_⟩
  · rcases h.down.grounded.admitted hin with hheard | ⟨cfg, hcfg, ⟨x, p⟩, hx, user, password, hp, hok⟩
    · exact absurd hheard h.no_success
    cases hserver.symm.trans hcfg
    have hmem : Obs.handled x p ∈ s.log := mem_handledPackets.mp hx
    obtain ⟨-, cfg, hcfg, rfl⟩ := h.of_userauthRequest hmem (IsMsg.of_prefix hp)
    cases hclient.symm.trans hcfg
    obtain ⟨b, owner, w, hq, -⟩ := queued_of_handled h.up.opened hmem
    have hlen := hfit ⟨b, _, w⟩ (List.mem_filterMap.mpr ⟨_, hq, rfl⟩)
    dsimp only at hlen
    obtain ⟨rfl, rfl⟩ := passwordRequest_prefix hp (by omega)
    exact hok
  · rcases h.up.grounded.admitted hin with ⟨x, p, hmem, hm⟩ | ⟨cfg, hcfg, -⟩
    · exact (h.of_userauthSuccess hmem hm).2
    · cases hnone.symm.trans hcfg

end Mutual

-- ============================================================================
-- Whole runs
-- ============================================================================

variable [CryptoLib]

namespace Link

variable {l : Link} {acts : List Act} {server : ServerConfig} {client : ClientConfig}
  {rngS rngC : Rng}

/-- What an end of a run was made from. -/
theorem run_settings (h : run server client rngS rngC acts = some l) :
    l.server.now.settings = ((Setup.server server).blank rngS).settings ∧
      l.client.now.settings = ((Setup.client client).blank rngC).settings := by
  obtain ⟨l0, hstart, -, hserver, hclient⟩ := run_beats h
  obtain ⟨hstartS, hstartC, -⟩ := starts_of_start hstart
  exact ⟨(Moves.settings hserver.moves).trans hstartS.extends.settings,
    (Moves.settings hclient.moves).trans hstartC.extends.settings⟩

theorem run_attains (h : run server client rngS rngC acts = some l) :
    (Setup.server server).Attains l.server ∧ (Setup.client client).Attains l.client := by
  obtain ⟨l0, hstart, -, hserver, hclient⟩ := run_beats h
  obtain ⟨hstartS, hstartC, -⟩ := starts_of_start hstart
  exact ⟨⟨rngS, l0.server, hstartS, hserver⟩, ⟨rngC, l0.client, hstartC, hclient⟩⟩

theorem run_mutual [CryptoLaws] (hs : OneLine server.ident) (hc : OneLine client.ident)
    (h : run server client rngS rngC acts = some l) (hfitS : LengthsFit l.server.log)
    (hfitC : LengthsFit l.client.log) : Mutual l.server l.client := by
  obtain ⟨hattS, hattC⟩ := run_attains h
  obtain ⟨hsetS, hsetC⟩ := run_settings h
  obtain ⟨fd, fu, hl⟩ := (run_linked hs hc h hfitS hfitC).coupled
  exact ⟨congrArg (·.role) hsetS, congrArg (·.role) hsetC,
    ⟨hl.up.opens, hattC.grounded, hattS.sure.2⟩, ⟨hl.down.opens, hattS.grounded, hattC.sure.2⟩⟩

/-- Whoever is authenticated at either end of a link, or has a channel, or has been
    announced one, is there because the server accepts the password of the client; a
    client that holds itself authenticated is; and the password has not crossed the
    link in the clear. -/
theorem run_login [CryptoLaws] (hs : OneLine server.ident) (hc : OneLine client.ident)
    (h : run server client rngS rngC acts = some l) (hfitS : LengthsFit l.server.log)
    (hfitC : LengthsFit l.client.log) :
    (Admitted l.server ∨ Admitted l.client →
      server.checkPassword client.username client.password = true) ∧
    (Admitted l.client → l.server.now.authed = true) ∧
    (∀ b owner q w, Obs.queued b owner q w ∈ l.client.log → IsMsg .userauthRequest q →
      b.sendCipher ≠ .clear) := by
  have hmutual := run_mutual hs hc h hfitS hfitC
  obtain ⟨hsetS, hsetC⟩ := run_settings h
  obtain ⟨hserver, hclient⟩ := hmutual.admitted (congrArg (·.server) hsetS)
    (congrArg (·.client) hsetC) (congrArg (·.server) hsetC) hfitC
  refine ⟨fun hin => ?_, hclient, fun b owner q w hmem hm => ne_clear_of_aead (hmutual.veiled hmem hm)⟩
  rcases hin with hin | hin
  · exact hserver hin
  · exact hserver (.authed (hclient hin))

omit [CryptoLib] in
theorem run_login_delivered : ∃ l, @run Toy.lib Toy.server Toy.client Toy.rng Toy.otherRng
      Toy.deliveries = some l ∧ Admitted l.client ∧ l.server.now.authed = true ∧
    Toy.server.checkPassword Toy.client.username Toy.client.password = true := by
  let _ := Toy.lib
  have _ := Toy.laws
  obtain ⟨l, hl, hs, hc, -, -, -, -, hauth, -⟩ := Toy.delivered
  obtain ⟨hright, hin, -⟩ :=
    run_login (by decide +kernel) (by decide +kernel) hl hs.withinMax.lengthsFit
      hc.withinMax.lengthsFit
  exact ⟨l, hl, .authed hauth, hin (.authed hauth), hright (.inr (.authed hauth))⟩

/-- With the right password the two ends cannot get stuck: in every run that has no
    packet left to handle, no key exchange is running, both ends hold the client
    for authenticated, and neither holds back the messages of its application. -/
theorem run_settles [CryptoLaws] (hs : OneLine server.ident) (hc : OneLine client.ident)
    (h : run server client rngS rngC acts = some l) (hfitS : LengthsFit l.server.log)
    (hfitC : LengthsFit l.client.log)
    (hok : server.checkPassword client.username client.password = true)
    (hdown : openedPackets l.client.log = sealedPackets l.server.log)
    (hup : openedPackets l.server.log = sealedPackets l.client.log) :
    (l.server.now.kex = none ∧ l.client.now.kex = none) ∧
    (l.server.now.authed = true ∧ l.client.now.authed = true) ∧
    (l.server.now.kexBlocksApp = false ∧ l.client.now.kexBlocksApp = false) := by
  have hmutual := run_mutual hs hc h hfitS hfitC
  obtain ⟨hattS, hattC⟩ := run_attains h
  obtain ⟨-, hsetC⟩ := run_settings h
  obtain ⟨fd, fu, hl⟩ := (run_linked hs hc h hfitS hfitC).coupled
  -- no message of an exchange is in flight, so none is running
  have hidle : l.server.now.kex = none ∧ l.client.now.kex = none := by
    have hjoint := hl.joint
    rw [hl.down.flight_nil hdown, hl.up.flight_nil hup] at hjoint
    exact hjoint.of_nil
  have hrun : l.server.now.footing.running = false ∧ l.client.now.footing.running = false :=
    ⟨congrArg Option.isSome hidle.1, congrArg Option.isSome hidle.2⟩
  obtain ⟨⟨hsureS, -⟩, ⟨hsureC, -⟩⟩ := And.intro hattS.sure hattC.sure
  -- each message of the login was sent, and what was sent was handled
  have hserver : l.server.now.authed = true := by
    obtain ⟨_, _, hq1⟩ := hattC.prompt.asks hmutual.client (hsureC.first hrun.2)
    obtain ⟨_, hh1⟩ := handled_of_queued hup hq1
    obtain ⟨_, _, _, hq2⟩ := hattS.prompt.grants hmutual.server ⟨_, _, hh1, rfl⟩
    obtain ⟨_, hh2⟩ := handled_of_queued hdown hq2
    obtain ⟨cfg, hcfg, b, w, hq3⟩ := hattC.prompt.presents hmutual.client ⟨_, _, hh2, rfl⟩
    obtain rfl : client = cfg := Option.some.inj ((congrArg (·.client) hsetC).symm.trans hcfg)
    obtain ⟨_, hh3⟩ := handled_of_queued hup hq3
    have hlen := hfitC ⟨b, _, w⟩ (List.mem_filterMap.mpr ⟨_, hq3, rfl⟩)
    dsimp only at hlen
    exact hattS.admits hh3 (by omega) hok
  have hclient : l.client.now.authed = true := by
    obtain ⟨-, _, _, hq⟩ := (hattS.prompt.welcomes hserver).resolve_left hmutual.no_success
    obtain ⟨_, hh⟩ := handled_of_queued hdown hq
    exact hattC.prompt.enters ⟨_, _, hh, rfl⟩
  obtain ⟨hlateS, hlateC⟩ := hmutual.late
  refine ⟨hidle, ⟨hserver, hclient⟩, ?_, ?_⟩
  · apply eq_false_of_ne_true
    intro hgate
    cases hrun.1.symm.trans (hsureS.gate hlateS hserver hgate)
  · apply eq_false_of_ne_true
    intro hgate
    cases hrun.2.symm.trans (hsureC.gate hlateC hclient hgate)

omit [CryptoLib] in
theorem run_settles_delivered : ∃ l, @run Toy.lib Toy.server Toy.client Toy.rng Toy.otherRng
      Toy.deliveries = some l ∧
    (l.server.now.kex = none ∧ l.client.now.kex = none) ∧
    (l.server.now.authed = true ∧ l.client.now.authed = true) ∧
    (l.server.now.kexBlocksApp = false ∧ l.client.now.kexBlocksApp = false) := by
  let _ := Toy.lib
  have _ := Toy.laws
  obtain ⟨l, hl, hs, hc, hdown, hup, -⟩ := Toy.delivered
  exact ⟨l, hl, run_settles (by decide +kernel) (by decide +kernel) hl hs.withinMax.lengthsFit
    hc.withinMax.lengthsFit (by decide +kernel) hdown hup⟩

end Link

end Ssproxy
