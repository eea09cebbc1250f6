/-
  Ssproxy.Pair.Handover

  What the moves of a key exchange do to one side, in the terms of
  `Ssproxy.Pair.Joint`: starting an exchange, recording the KEXINIT of the
  peer, and the handover of the keys.  The two sides compute one session id,
  and each the keys of the other with the directions swapped.
-/

import Ssproxy.Pair.Joint
import Ssproxy.Mirror

namespace Ssproxy

open Lib Wire Connection Relation

variable [CryptoLib]

variable {a a' b c c' : Conn} {pipe p : Bytes} {flight : List Packet} {k l : KexState}

-- ============================================================================
-- Starting an exchange
-- ============================================================================

theorem Starts.asking (h : Starts a a') : ∃ k, Asking a'.now.party k ∧
    k.ours = a.now.ownKexInit ∧ a'.now.party.sessionId = a.now.party.sessionId := by
  cases h with
  | @mk a1 hq =>
    have hctl := hq.control
    have hrole : a1.now.role = a.now.role := congrArg (·.conn.role) hctl
    refine ⟨_, ⟨rfl, ?_, fun hclient => ?_, rfl⟩, rfl, congrArg (·.conn.sessionId) hctl⟩
    · show Offers a1.now.role _
      rw [hrole]
      exact a.now.offers_ownKexInit
    · have hclient : a1.now.role = .client := hclient
      simp only [ephemeral, hclient, Option.map_some, Option.some.injEq]
      exact ⟨_, rfl, rfl⟩

theorem Carried.starts (h : Carried a b pipe flight) (hs : Starts a a') :
    ∃ i : Packet, i.payload = a.now.ownKexInit.raw ∧ Carried a' b pipe (flight ++ [i]) := by
  cases hs with
  | mk hq =>
    have hnew : ¬IsMsg .newkeys a.now.ownKexInit.raw :=
      fun hm => absurd ((isMsg_ownKexInit _).unique hm) (by decide)
    have hdrawn : Carried ⟨{ a.now with rng := a.now.rng.skip 16 }, a.log⟩ b pipe flight :=
      h.writer rfl rfl rfl rfl
    obtain ⟨i, -, hi, hc⟩ := hdrawn.queue hq hnew
    exact ⟨i, hi, hc.writer rfl rfl rfl rfl⟩

-- ============================================================================
-- Recording the KEXINIT of the peer
-- ============================================================================

omit [CryptoLib] in
/-- The peer asks for strict key exchange. -/
theorem listHas_strictName (x : Connection) : listHas x.role.peer.kexNames x.strictName = true := by
  unfold strictName
  cases x.role <;> decide

theorem agreed_recorded {x : Connection} {theirs : KexInit} {c2s s2c : String}
    (ha : Asking x.party k) (ho : Offers x.role.peer theirs) (hn : Negotiates theirs c2s s2c) :
    Agreed (x.recorded k theirs c2s s2c).party { k with
      cipherC2s := CipherKind.fromName c2s
      cipherS2c := CipherKind.fromName s2c
      theirs := some theirs } theirs.raw := by
  obtain ⟨cookie, hbuilt⟩ := ho
  have hkex : theirs.kex = x.role.peer.kexNames := by
    rw [hbuilt]
    rfl
  have hfirst : ∀ {n}, negotiate serverCiphers serverCiphers false = some n →
      CipherKind.fromName n = agreedCipher := by
    intro n h
    rw [agreedCipher, h]
    rfl
  have hc2s := hn.c2s
  have hs2c := hn.s2c
  rw [hbuilt] at hc2s hs2c
  refine ⟨rfl, ha.ours, ha.secret, ⟨theirs, rfl, rfl⟩, hfirst hc2s, hfirst hs2c, ?_⟩
  show (x.strictKex || listHas theirs.kex x.strictName) = true
  rw [hkex, listHas_strictName, Bool.or_true]

-- ============================================================================
-- The handover
-- ============================================================================

/-- The keys that are put in place are those that were pending, and the receive key
    is kept for the NEWKEYS of the peer. -/
theorem Switches.handedOver {pk : PendingKeys} (h : Switches pk a a')
    (hk : a.now.kex.isSome = true) (hstrict : a.now.strictKex = true) :
    a.now.pendingKeys = some pk ∧ HandedOver a'.now.party { pk with send := .clear } ∧
      a'.now.sessionId = a.now.sessionId := by
  cases h with
  | mk hpk hq =>
    have hctl := hq.control
    have hkex := congrArg (·.conn.kex) hctl
    exact ⟨hpk, ⟨(congrArg Option.isSome hkex).trans hk, rfl,
      (congrArg (·.conn.strictKex) hctl).trans hstrict⟩, congrArg (·.conn.sessionId) hctl⟩

theorem Carried.switches {pk : PendingKeys} (h : Carried a b pipe flight) (hs : Switches pk a a')
    (hstrict : a.now.strictKex = true) :
    ∃ i : Packet, Installs i pk.send ∧ Carried a' b pipe (flight ++ [i]) := by
  obtain ⟨i, hbefore, hi, hc⟩ := h.switch hs
  refine ⟨i, ⟨hi, ?_, pk, ?_, rfl⟩, hc⟩
  · rw [hbefore]
    exact hstrict
  · rw [hbefore]
    cases hs with
    | mk hpk hq => exact hpk

omit [CryptoLib] in
/-- An ECDH_INIT says which key it carries. -/
theorem ecdhInit_injective {q q' : Block 32} (h : Msg.ecdhInit q <+: Msg.ecdhInit q') : q = q' := by
  obtain ⟨r, hr⟩ := h
  have hbytes : putBytes q.val ++ r = putBytes q'.val ++ [] := by
    rw [List.append_nil]
    exact (List.cons.inj hr).2
  have hlen : ∀ q : Block 32, q.val.length < 2 ^ 32 := by
    intro q
    rw [q.property]
    decide
  exact Subtype.ext (putBytes_append_inj (hlen q) (hlen q') hbytes).1

omit [CryptoLib] in
theorem ecdhReply_injective {ks ks' sig sig' : Bytes} {q q' : Block 32} (hks : ks.length < 2 ^ 32)
    (hks' : ks'.length < 2 ^ 32) (h : Msg.ecdhReply ks q sig <+: Msg.ecdhReply ks' q' sig') :
    ks = ks' ∧ q = q' := by
  obtain ⟨r, hr⟩ := h
  have hlen : ∀ q : Block 32, q.val.length < 2 ^ 32 := by
    intro q
    rw [q.property]
    decide
  have hbytes : putBytes ks ++ (putBytes q.val ++ (putBytes sig ++ r))
      = putBytes ks' ++ (putBytes q'.val ++ putBytes sig') := by
    have h := (List.cons.inj hr).2
    simpa only [List.append_assoc, List.append_eq] using h
  obtain ⟨hk, hbytes⟩ := putBytes_append_inj hks hks' hbytes
  obtain ⟨hq, -⟩ := putBytes_append_inj (hlen q) (hlen q') hbytes
  exact ⟨hk, Subtype.ext hq⟩

theorem length_publicBlob (k : HostKey) : k.publicBlob.length < 2 ^ 32 := by
  have hname : (putStr "ssh-ed25519").length = 15 := by decide +kernel
  simp only [HostKey.publicBlob, List.length_append, length_putBytes, Block.length_val, hname]
  omega

/-- The server `s` answers the ECDH_INIT of the client `c`: its reply leads the
    client to the keys of the server. -/
theorem replies_of_answer [CryptoLaws] {s : Connection} {cl s' : Party} {y : Exchange}
    {ks sig : Bytes} {qC secret : Block 32} {i : Packet} {pk : PendingKeys}
    (hrole : s.role = .server) (hclient : cl.settings.role = .client)
    (hpeer : ∀ v, s.identPeer = some v → v = cl.settings.identLocal)
    (hlocal : s'.settings.identLocal = s.identLocal)
    (hs : Agreed s.party k l.ours.raw) (hc : Agreed cl l k.ours.raw)
    (hid : s.sessionId = cl.sessionId) (hy : s.InExchange y) (hpub : l.localPub = some qC)
    (hks : ks.length < 2 ^ 32)
    (hi : i.payload = Msg.ecdhReply ks (CryptoLib.x25519Base secret) sig)
    (hsid : s'.sessionId = some (s.sessionId.getD (s.exchangeHash y ks qC
      (CryptoLib.x25519Base secret) (CryptoLib.x25519 secret qC))))
    (hpk : pk = s.exchangeKeys y (s.exchangeHash y ks qC (CryptoLib.x25519Base secret)
        (CryptoLib.x25519 secret qC))
      (s.sessionId.getD (s.exchangeHash y ks qC (CryptoLib.x25519Base secret)
        (CryptoLib.x25519 secret qC))) (CryptoLib.x25519 secret qC)) :
    Replies i s' cl pk.recv pk.send := by
  refine ⟨ks, _, sig, hi, hks, ?_⟩
  rintro cc x pub csecret rfl hpeer' hx hxpub hxsec
  -- the exchange of each side is the one it agreed on
  have hxk : x.kex = l := Option.some.inj (hx.kex.symm.trans hc.kex)
  have hyk : y.kex = k := Option.some.inj (hy.kex.symm.trans hs.kex)
  obtain ⟨t, ht, htraw⟩ := hc.theirs
  obtain ⟨u, hu, huraw⟩ := hs.theirs
  have hxt : x.theirs = t := Option.some.inj (hx.theirs.symm.trans (hxk ▸ ht))
  have hyt : y.theirs = u := Option.some.inj (hy.theirs.symm.trans (hyk ▸ hu))
  have hmirror : Mirrored { cc with peerKs := some ks } { s with peerKs := some ks } x y ks :=
    { client := hclient
      server := hrole
      clientIn := ⟨hx.kex, hx.theirs, hx.identPeer, hx.c2s, hx.s2c⟩
      serverIn := ⟨hy.kex, hy.theirs, hy.identPeer, hy.c2s, hy.s2c⟩
      identClient := hpeer _ hy.identPeer
      identServer := (hpeer' _ hx.identPeer).trans hlocal
      kexinitClient := by rw [hyt, hxk, huraw]
      kexinitServer := by rw [hxt, hyk, htraw]
      c2s := by
        have h := hs.c2s.trans hc.c2s.symm
        rw [← hyk, ← hxk, hy.c2s, hx.c2s] at h
        exact Option.some.inj h
      s2c := by
        have h := hs.s2c.trans hc.s2c.symm
        rw [← hyk, ← hxk, hy.s2c, hx.s2c] at h
        exact Option.some.inj h
      clientBlob := rfl
      serverBlob := rfl
      sessionId := hid }
  -- both compute one shared secret
  have hpub' : pub = qC := by
    rw [hxk, hpub] at hxpub
    exact (Option.some.inj hxpub).symm
  have hshared : CryptoLib.x25519 csecret (CryptoLib.x25519Base secret)
      = CryptoLib.x25519 secret qC := by
    obtain ⟨e, he, hbase⟩ := hc.secret hclient
    rw [hxk, he] at hxsec
    rw [hpub] at hbase
    rw [← Option.some.inj hxsec, Option.some.inj hbase]
    exact CryptoLaws.x25519_comm _ _
  have hhash := hmirror.exchangeHash qC (CryptoLib.x25519Base secret) (CryptoLib.x25519 secret qC)
  have hkeys := hmirror.exchangeKeys (CryptoLib.x25519 secret qC)
  intro shared hash
  have hsame : s.exchangeHash y ks qC (CryptoLib.x25519Base secret) (CryptoLib.x25519 secret qC)
      = hash := by
    show _ = cc.exchangeHash x ks pub (CryptoLib.x25519Base secret)
      (CryptoLib.x25519 csecret (CryptoLib.x25519Base secret))
    rw [hshared, hpub']
    exact hhash
  have hsids : s.sessionId = cc.sessionId := hid
  rw [hsame, hsids] at hsid hpk
  refine ⟨hsid, ?_⟩
  have hup := hkeys hash (cc.sessionId.getD hash)
  rw [hpk]
  show cc.exchangeKeys x hash (cc.sessionId.getD hash)
    (CryptoLib.x25519 csecret (CryptoLib.x25519Base secret)) = _
  rw [hshared]
  exact (congrArg (fun q : PendingKeys => PendingKeys.mk q.recv q.send) hup).symm

/-- The NEWKEYS of the peer puts its key in place: the reader follows. -/
theorem Carried.takeNewkeys [CryptoLaws] {b1 : Conn} (h : Carried a b pipe flight)
    (hfit : LengthsFit a.log) (hid : b.now.identInDone = true) (hr : Receives p b b1)
    (hm : IsMsg .newkeys p) :
    ∃ (i : Packet) (rest : List Packet), flight = i :: rest ∧ i.payload = p ∧
      ∀ pk : PendingKeys, Installs i pk.recv → b.now.strictKex = true →
        Carried a ⟨(b1.now.installRecv pk).completed, b1.log⟩ pipe rest := by
  obtain ⟨i, rest, hflight, hi, hline, hnext⟩ := h.take hfit hid hr
  refine ⟨i, rest, hflight, hi, fun pk hinst hstrict => hnext _ rfl rfl ?_ rfl⟩
  rw [if_pos ⟨hm, hstrict⟩] at hline
  have hinstalls : b1.now.recvInstalls = i.before.sendInstalls := congrArg (·.1) hline
  have hseq : b1.now.recvSeq = 0 := congrArg (·.2.2) hline
  rw [hinst.after]
  show (b1.now.recvInstalls + 1, pk.recv, b1.now.recvSeq) = _
  rw [hinstalls, hseq]

end Ssproxy
