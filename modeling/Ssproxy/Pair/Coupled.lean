/-
  Ssproxy.Pair.Coupled

  A server and a client over the bytes between them.  `Coupled` puts the two
  directions (`Ssproxy.Pair.Carried`) and the key exchange (`Ssproxy.Pair.Joint`)
  together; whatever either side does, it is kept.
-/

import Ssproxy.Pair.Handover

namespace Ssproxy

open Lib Wire Connection Relation

variable [CryptoLib]

/-- The two ends of one connection: their roles, and ident lines of one line. -/
structure Ends (s c : Conn) : Prop where
  server : s.now.role = .server
  client : c.now.role = .client
  serverLine : OneLine s.now.identLocal
  clientLine : OneLine c.now.identLocal

/-- The server `s` and the client `c`, with `down` on the way to the client and `up`
    to the server, and the packets `fd` and `fu` not yet handled. -/
structure Coupled (s c : Conn) (down up : Bytes) (fd fu : List Packet) : Prop where
  joint : Joint s.now.party c.now.party (kexPackets fd) (kexPackets fu)
  down : Carried s c down fd
  up : Carried c s up fu

variable {s s' c c' a a' : Conn} {down up p payload : Bytes} {fd fu : List Packet}
  {owner : Option UInt32}

-- ============================================================================
-- The packets of key exchanges in flight
-- ============================================================================

omit [CryptoLib] in
theorem kexPackets_cons_of_none {i : Packet} {l : List Packet} (h : kexMsg i.payload = none) :
    kexPackets (i :: l) = kexPackets l := by
  rw [kexPackets_cons, h]
  rfl

omit [CryptoLib] in
theorem kexPackets_cons_of_isMsg {m : MsgType} {i : Packet} {l : List Packet}
    (h : IsMsg m i.payload) (hm : m ∈ MsgType.keyExchange) :
    kexPackets (i :: l) = i :: kexPackets l := by
  rw [kexPackets_cons, kexMsg_of_isMsg h, if_pos hm]
  rfl

omit [CryptoLib] in
theorem kexPackets_concat_of_isMsg {m : MsgType} {i : Packet} {l : List Packet}
    (h : IsMsg m i.payload) (hm : m ∈ MsgType.keyExchange) :
    kexPackets (l ++ [i]) = kexPackets l ++ [i] := by
  rw [kexPackets_append, kexPackets_cons_of_isMsg h hm]
  rfl

theorem Queues.party (h : Queues owner payload a a') : a'.now.party = a.now.party := by
  have hctl := h.control
  unfold Connection.party
  rw [h.extends.settings]
  exact congrArg (fun k : Control => Party.mk _ k.conn.strictKex k.conn.sessionId k.conn.kex
    k.conn.pendingKeys) hctl

theorem Talk.party (h : Talk a a') : a'.now.party = a.now.party := by
  cases h with
  | rest he hlog hnew => exact congrArg (·.party) he
  | say hq hp => exact hq.party

theorem Talks.party (h : Talks a a') : a'.now.party = a.now.party := by
  induction h with
  | refl => rfl
  | tail _ hlast ih => exact hlast.party.trans ih

namespace Coupled

-- ============================================================================
-- The server
-- ============================================================================

theorem serverTalks (h : Coupled s c down up fd fu) (ht : Talks s s') :
    ∃ fd', Coupled s' c down up fd' fu := by
  obtain ⟨new, hnew, hdown⟩ := h.down.talks ht
  refine ⟨fd ++ new, ?_, hdown, h.up.readerTalks ht⟩
  rw [ht.party, kexPackets_append, hnew, List.append_nil]
  exact h.joint

theorem serverStarts (h : Coupled s c down up fd fu) (hk : s.now.kex = none) (hs : Starts s s') :
    ∃ fd', Coupled s' c down up fd' fu := by
  obtain ⟨k, hasking, hours, hid⟩ := hs.asking
  obtain ⟨i, hi, hdown⟩ := h.down.starts hs
  refine ⟨fd ++ [i], ?_, hdown, h.up.readerExtends hs.extends⟩
  rw [kexPackets_concat_of_isMsg (hi ▸ isMsg_ownKexInit _) (by decide)]
  exact h.joint.serverStarts hk hasking hid (hours ▸ hi)

/-- The server takes a packet. -/
theorem serverServes [CryptoLaws] (h : Coupled s c down up fd fu) (he : Ends s c)
    (hfit : LengthsFit c.log) (hready : s.now.identInDone = true) (hs : Serves p s s') :
    ∃ fd' fu', Coupled s' c down up fd' fu' := by
  cases hs with
  | @talk s1 _ hr hp ht =>
    have hnew : ¬IsMsg .newkeys p := by
      intro hm
      rw [kexMsg_of_isMsg hm] at hp
      cases hp
    obtain ⟨i, rest, rfl, hi, hup⟩ := h.up.takePlain hfit hready hr hnew
    have hjoint := h.joint
    rw [kexPackets_cons_of_none (hi ▸ hp), ← hr.party] at hjoint
    have h1 : Coupled s1 c down up fd rest := ⟨hjoint, h.down.writerReceives hr, hup⟩
    obtain ⟨fd', h'⟩ := h1.serverTalks ht
    exact ⟨fd', rest, h'⟩
  | @kexinitServer s1 s2 q theirs k c2s s2c hr hm hrole hp hj hk hn =>
    have hnew : ¬IsMsg .newkeys p := fun h => absurd (hm.unique h) (by decide)
    obtain ⟨i, rest, rfl, rfl, hup⟩ := h.up.takePlain hfit hready hr hnew
    have hjoint := h.joint
    rw [kexPackets_cons_of_isMsg hm (by decide), ← hr.party] at hjoint
    -- the server may have to start its part first
    have hjoined : ∃ fd2, Joint s2.now.party c.now.party (kexPackets fd2) (i :: kexPackets rest) ∧
        Carried s2 c down fd2 := by
      cases hj with
      | running hk => exact ⟨fd, hjoint, h.down.writerReceives hr⟩
      | started hk hs =>
        obtain ⟨k0, hasking, hours, hid⟩ := hs.asking
        obtain ⟨j, hj, hdown⟩ := (h.down.writerReceives hr).starts hs
        refine ⟨fd ++ [j], ?_, hdown⟩
        rw [kexPackets_concat_of_isMsg (hj ▸ isMsg_ownKexInit _) (by decide)]
        exact hjoint.serverStarts hk hasking hid (hours ▸ hj)
    obtain ⟨fd2, hjoint2, hdown2⟩ := hjoined
    obtain ⟨hasking, l, hoffer, hraw, hnext⟩ := hjoint2.serverHears hm hk
    have hclient : c.now.party.settings.role = s2.now.role.peer := by
      rw [show s2.now.role = s1.now.role from congrArg (·.role) hj.extends.settings, hrole]
      exact he.client
    rw [hclient] at hoffer
    rw [hraw] at hp
    have htheirs := hoffer.parsed hp
    subst htheirs
    have hagreed := agreed_recorded hasking hoffer hn
    rw [← hraw] at hagreed
    refine ⟨fd2, rest, hnext _ _ hagreed rfl rfl, hdown2.writer rfl rfl rfl rfl, ?_⟩
    exact (hup.readerExtends hj.extends).reader rfl rfl rfl
  | kexinitClient hr hm hrole hp hj hk hn hpub hq =>
    have hserver := (congrArg (·.role) hr.settings).trans he.server
    cases hrole.symm.trans hserver
  | @ecdhInit s1 s2 _ x cfg qC secret sig pk rng hr hrole hm hx hcfg hq hs =>
    have hinit : IsMsg .kexEcdhInit p := IsMsg.of_prefix hm
    have hnew : ¬IsMsg .newkeys p := fun h => absurd (hinit.unique h) (by decide)
    obtain ⟨i, rest, rfl, rfl, hup⟩ := h.up.takePlain hfit hready hr hnew
    have hjoint := h.joint
    rw [kexPackets_cons_of_isMsg hinit (by decide), ← hr.party] at hjoint
    obtain ⟨hfd, hrest, hid, k, l, hagreed, hagreed', pub, hpub, hi⟩ := hjoint.serverInvited hinit
    rw [hi] at hm
    obtain rfl := ecdhInit_injective hm
    -- the reply, then NEWKEYS
    have hdown1 : Carried ⟨({ s1.now with
        rng := rng, peerKs := some cfg.hostKey.publicBlob } : Connection).finished x
          cfg.hostKey.publicBlob qC (CryptoLib.x25519Base secret) (CryptoLib.x25519 secret qC),
        s1.log⟩ c down fd :=
      (h.down.writerReceives hr).writer rfl rfl rfl rfl
    obtain ⟨ri, -, hri, hdown2⟩ := hdown1.queue hq fun hm =>
      absurd (hm.unique (show IsMsg .kexEcdhReply _ from rfl)) (by decide)
    have hstrict : s2.now.strictKex = true :=
      (congrArg (·.conn.strictKex) hq.control).trans hagreed.strict
    have hkex : s2.now.kex.isSome = true := by
      have h := congrArg (·.conn.kex) hq.control
      rw [show s2.now.kex = s1.now.kex from h, hx.kex]
      rfl
    obtain ⟨hpk, hover, hsid⟩ := hs.handedOver hkex hstrict
    obtain ⟨ni, hni, hdown3⟩ := hdown2.switches hs hstrict
    have hreplies : Replies ri s'.now.party c.now.party pk.recv pk.send := by
      apply replies_of_answer hrole he.client _ _ hagreed hagreed' hid hx hpub
        (length_publicBlob _) hri
      · exact hsid.trans (congrArg (·.conn.sessionId) hq.control)
      · exact Option.some.inj (hpk.symm.trans (congrArg (·.conn.pendingKeys) hq.control))
      · exact fun v hv => hup.peer hv
      · exact congrArg (·.identLocal) (hq.extends.trans hs.extends).settings
    refine ⟨fd ++ [ri] ++ [ni], rest, ?_, hdown3, ?_⟩
    · rw [kexPackets_concat_of_isMsg hni.isMsg (by decide),
        kexPackets_concat_of_isMsg hreplies.isMsg (by decide), hfd, hrest]
      exact .replied hover hagreed' hreplies hni
    · exact hup.readerSince (hq.extends.trans hs.extends) rfl rfl rfl
  | ecdhReply hr hrole hm hpub hsec hx hks hsig hs =>
    have hserver := (congrArg (·.role) hr.settings).trans he.server
    cases hrole.symm.trans hserver
  | @newkeys s1 _ pk hr hm hpk ht =>
    obtain ⟨i, rest, rfl, rfl, hup⟩ := h.up.takeNewkeys hfit hready hr hm
    have hjoint := h.joint
    rw [kexPackets_cons_of_isMsg hm (by decide)] at hjoint
    obtain ⟨pk', hover, hinst, hnext⟩ := hjoint.serverEnds hm
    have hpending : s1.now.pendingKeys = some pk' :=
      (congrArg (·.pending) hr.party).trans hover.pending
    cases hpk.symm.trans hpending
    have h1 : Coupled ⟨(s1.now.installRecv pk).completed, s1.log⟩ c down up fd rest := by
      refine ⟨hnext _ rfl (congrArg (·.sessionId) hr.party), ?_, hup pk hinst hover.strict⟩
      exact (h.down.writerReceives hr).writer rfl rfl rfl rfl
    obtain ⟨fd', h'⟩ := h1.serverTalks ht
    exact ⟨fd', rest, h'⟩

-- ============================================================================
-- The client
-- ============================================================================

theorem clientTalks (h : Coupled s c down up fd fu) (ht : Talks c c') :
    ∃ fu', Coupled s c' down up fd fu' := by
  obtain ⟨new, hnew, hup⟩ := h.up.talks ht
  refine ⟨fu ++ new, ?_, h.down.readerTalks ht, hup⟩
  rw [ht.party, kexPackets_append, hnew, List.append_nil]
  exact h.joint

theorem clientStarts (h : Coupled s c down up fd fu) (hk : c.now.kex = none) (hs : Starts c c') :
    ∃ fu', Coupled s c' down up fd fu' := by
  obtain ⟨l, hasking, hours, hid⟩ := hs.asking
  obtain ⟨i, hi, hup⟩ := h.up.starts hs
  refine ⟨fu ++ [i], ?_, h.down.readerExtends hs.extends, hup⟩
  rw [kexPackets_concat_of_isMsg (hi ▸ isMsg_ownKexInit _) (by decide)]
  exact h.joint.clientStarts hk hasking hid (hours ▸ hi)

/-- The client takes a packet. -/
theorem clientServes [CryptoLaws] (h : Coupled s c down up fd fu) (he : Ends s c)
    (hfit : LengthsFit s.log) (hready : c.now.identInDone = true) (hs : Serves p c c') :
    ∃ fd' fu', Coupled s c' down up fd' fu' := by
  cases hs with
  | @talk c1 _ hr hp ht =>
    have hnew : ¬IsMsg .newkeys p := by
      intro hm
      rw [kexMsg_of_isMsg hm] at hp
      cases hp
    obtain ⟨i, rest, rfl, hi, hdown⟩ := h.down.takePlain hfit hready hr hnew
    have hjoint := h.joint
    rw [kexPackets_cons_of_none (hi ▸ hp), ← hr.party] at hjoint
    have h1 : Coupled s c1 down up rest fu := ⟨hjoint, hdown, h.up.writerReceives hr⟩
    obtain ⟨fu', h'⟩ := h1.clientTalks ht
    exact ⟨rest, fu', h'⟩
  | kexinitServer hr hm hrole hp hj hk hn =>
    have hclient := (congrArg (·.role) hr.settings).trans he.client
    cases hrole.symm.trans hclient
  | @kexinitClient c1 c2 _ q theirs k c2s s2c pub hr hm hrole hp hj hk hn hpub hq =>
    have hnew : ¬IsMsg .newkeys p := fun h => absurd (hm.unique h) (by decide)
    obtain ⟨i, rest, rfl, rfl, hdown⟩ := h.down.takePlain hfit hready hr hnew
    have hjoint := h.joint
    rw [kexPackets_cons_of_isMsg hm (by decide), ← hr.party] at hjoint
    -- the client may have to start its part first
    have hjoined : ∃ fu2, Joint s.now.party c2.now.party (i :: kexPackets rest) (kexPackets fu2) ∧
        Carried c2 s up fu2 := by
      cases hj with
      | running hk => exact ⟨fu, hjoint, h.up.writerReceives hr⟩
      | started hk hs =>
        obtain ⟨k0, hasking, hours, hid⟩ := hs.asking
        obtain ⟨j, hj, hup⟩ := (h.up.writerReceives hr).starts hs
        refine ⟨fu ++ [j], ?_, hup⟩
        rw [kexPackets_concat_of_isMsg (hj ▸ isMsg_ownKexInit _) (by decide)]
        exact hjoint.clientStarts hk hasking hid (hours ▸ hj)
    obtain ⟨fu2, hjoint2, hup2⟩ := hjoined
    obtain ⟨hasking, l, hoffer, hraw, hnext⟩ := hjoint2.clientHears hm hk
    have hserver : s.now.party.settings.role = c2.now.role.peer := by
      rw [show c2.now.role = c1.now.role from congrArg (·.role) hj.extends.settings, hrole]
      exact he.server
    rw [hserver] at hoffer
    rw [hraw] at hp
    have htheirs := hoffer.parsed hp
    subst htheirs
    have hagreed := agreed_recorded hasking hoffer hn
    rw [← hraw] at hagreed
    -- the recorded exchange goes on with ECDH_INIT
    have hrecorded : Carried ⟨c2.now.recorded k l.ours c2s s2c, c2.log⟩ s up fu2 :=
      hup2.writer rfl rfl rfl rfl
    obtain ⟨ei, -, hei, hup3⟩ := hrecorded.queue hq fun hm =>
      absurd (hm.unique (show IsMsg .kexEcdhInit _ from rfl)) (by decide)
    have hinvites : Invites ei { k with
        cipherC2s := CipherKind.fromName c2s
        cipherS2c := CipherKind.fromName s2c
        theirs := some l.ours } := ⟨pub, hpub, hei⟩
    have hparty : c'.now.party = (c2.now.recorded k l.ours c2s s2c).party := hq.party
    refine ⟨rest, fu2 ++ [ei], ?_, ?_, hup3⟩
    · rw [kexPackets_concat_of_isMsg hinvites.isMsg (by decide), hparty]
      exact hnext _ _ ei hagreed rfl hinvites rfl
    · exact (hdown.readerExtends hj.extends).readerSince hq.extends rfl rfl rfl
  | ecdhInit hr hrole hm hx hcfg hq hs =>
    have hclient := (congrArg (·.role) hr.settings).trans he.client
    cases hrole.symm.trans hclient
  | @ecdhReply c1 _ x ks sig qS pub secret pk hr hrole hm hpub hsec hx hks hsig hs =>
    have hreply : IsMsg .kexEcdhReply p := IsMsg.of_prefix hm
    have hnew : ¬IsMsg .newkeys p := fun h => absurd (hreply.unique h) (by decide)
    obtain ⟨i, rest, rfl, rfl, hdown⟩ := h.down.takePlain hfit hready hr hnew
    have hjoint := h.joint
    rw [kexPackets_cons_of_isMsg hreply (by decide), ← hr.party] at hjoint
    obtain ⟨hfu, j, key, l, raw, pk', hrest, hover, hagreed, hreplies, hinst⟩ :=
      hjoint.clientReplied hreply
    obtain ⟨ks', qS', sig', hi, hks', hreplies⟩ := hreplies
    rw [hi] at hm
    obtain ⟨rfl, rfl⟩ := ecdhReply_injective hks hks' hm
    obtain ⟨hsid, hkeys⟩ := hreplies c1.now x pub secret rfl (fun v hv => hdown.peer hv)
      hx hpub hsec
    obtain ⟨hpk, hover', hsid'⟩ := hs.handedOver rfl hagreed.strict
    have hpk : pk = ⟨pk'.recv, key⟩ := (Option.some.inj hpk).symm.trans hkeys
    -- NEWKEYS
    have hup1 : Carried ⟨({ c1.now with
        kex := some { x.kex with secret := none }, peerKs := some ks } : Connection).finished x ks
          pub qS (CryptoLib.x25519 secret qS), c1.log⟩ s up fu :=
      (h.up.writerReceives hr).writer rfl rfl rfl rfl
    obtain ⟨ni, hni, hup2⟩ := hup1.switches hs hagreed.strict
    refine ⟨rest, fu ++ [ni], ?_, hdown.readerSince hs.extends rfl rfl rfl, hup2⟩
    rw [kexPackets_concat_of_isMsg hni.isMsg (by decide), hfu, hrest]
    subst hpk
    exact .switched hover hover' hinst hni (hsid.trans hsid'.symm)
  | @newkeys c1 _ pk hr hm hpk ht =>
    obtain ⟨i, rest, rfl, rfl, hdown⟩ := h.down.takeNewkeys hfit hready hr hm
    have hjoint := h.joint
    rw [kexPackets_cons_of_isMsg hm (by decide)] at hjoint
    obtain ⟨pk', hover, hinst, hnext⟩ := hjoint.clientEnds hm
    have hpending : c1.now.pendingKeys = some pk' :=
      (congrArg (·.pending) hr.party).trans hover.pending
    cases hpk.symm.trans hpending
    have h1 : Coupled s ⟨(c1.now.installRecv pk).completed, c1.log⟩ down up rest fu := by
      refine ⟨hnext _ rfl (congrArg (·.sessionId) hr.party), hdown pk hinst hover.strict, ?_⟩
      exact (h.up.writerReceives hr).writer rfl rfl rfl rfl
    obtain ⟨fu', h'⟩ := h1.clientTalks ht
    exact ⟨rest, fu', h'⟩

end Coupled

end Ssproxy
