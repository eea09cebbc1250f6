/-
  Ssproxy.Pair.Joint

  The key exchanges of a server and a client as one state machine.  `Joint`
  lists the states the two can be in, each with the messages of key exchanges
  that are in flight; what one side has still to hear is known from what the
  other side has said.  An exchange may be started by either side whenever it
  has none running, also while the peer still waits for the end of the last one.
-/

import Ssproxy.Pair.Carried
import Ssproxy.Codec

namespace Ssproxy

open Lib Wire Connection Relation

-- ============================================================================
-- KEXINIT as this program builds it
-- ============================================================================

/-- The names of key exchange that a role offers. -/
def Role.kexNames : Role → List String
  | .server => serverKex
  | .client => clientKex

/-- The other side. -/
def Role.peer : Role → Role
  | .server => .client
  | .client => .server

/-- `k` is a KEXINIT of this role. -/
def Offers (r : Role) (k : KexInit) : Prop :=
  ∃ cookie, k = KexInit.build cookie r.kexNames serverHostKey serverCiphers serverMacs

/-- The cipher that two ends of this program agree on. -/
def agreedCipher : Option CipherKind :=
  (negotiate serverCiphers serverCiphers false).bind CipherKind.fromName

theorem Role.isNamelist_kexNames (r : Role) : IsNamelist r.kexNames := by
  cases r
  · exact ⟨by decide, by decide, by decide⟩
  · exact ⟨by decide, by decide, by decide⟩

theorem Connection.offers_ownKexInit (c : Connection) : Offers c.role c.ownKexInit := by
  refine ⟨c.rng.next 16, ?_⟩
  unfold ownKexInit Connection.kexNames Role.kexNames
  cases c.role <;> rfl

/-- The peer reads a KEXINIT as it was built. -/
theorem Offers.parsed {r : Role} {k theirs : KexInit} {q : Parser} (h : Offers r k)
    (hp : KexInit.parseBody k.raw (.new k.raw) = .ok theirs q) : theirs = k := by
  obtain ⟨cookie, hk⟩ := h
  have hraw := KexInit.raw_build cookie r.kexNames serverHostKey serverCiphers serverMacs
  have hhost : IsNamelist serverHostKey := ⟨by decide, by decide, by decide⟩
  have hciphers : IsNamelist serverCiphers := ⟨by decide, by decide, by decide⟩
  have hmacs : IsNamelist serverMacs := ⟨by decide, by decide, by decide⟩
  have hreads := KexInit.reads_parseBody cookie r.isNamelist_kexNames hhost hciphers hmacs k.raw
  rw [← hk] at hraw hreads
  dsimp only at hraw
  obtain ⟨q', hq, -⟩ := hreads (.new k.raw) (putU32 0) (by
    rw [Parser.rest_new, hraw]
    simp [putBool])
  rw [hp] at hq
  cases hq
  rfl

-- ============================================================================
-- Where one side stands
-- ============================================================================

variable [CryptoLib]

/-- The KEXINIT is out, and that of the peer has not been handled. -/
structure Asking (a : Party) (k : KexState) : Prop where
  kex : a.kex = some k
  ours : Offers a.settings.role k.ours
  secret : a.settings.role = .client →
    ∃ s, k.secret = some s ∧ k.localPub = some (CryptoLib.x25519Base s)
  theirs : k.theirs = none

/-- Both KEXINITs are known, that of the peer as `raw`. -/
structure Agreed (a : Party) (k : KexState) (raw : Bytes) : Prop where
  kex : a.kex = some k
  ours : Offers a.settings.role k.ours
  secret : a.settings.role = .client →
    ∃ s, k.secret = some s ∧ k.localPub = some (CryptoLib.x25519Base s)
  theirs : ∃ t, k.theirs = some t ∧ t.raw = raw
  c2s : k.cipherC2s = agreedCipher
  s2c : k.cipherS2c = agreedCipher
  strict : a.strict = true

/-- Our NEWKEYS is out, and that of the peer is awaited with the keys `pk`. -/
structure HandedOver (a : Party) (pk : PendingKeys) : Prop where
  kex : a.kex.isSome = true
  pending : a.pending = some pk
  strict : a.strict = true

-- ============================================================================
-- What is in flight
-- ============================================================================

/-- An ECDH_INIT of the client in the exchange `k`. -/
def Invites (i : Packet) (k : KexState) : Prop :=
  ∃ pub, k.localPub = some pub ∧ i.payload = Msg.ecdhInit pub

/-- A NEWKEYS after which the sender uses `key` from sequence number zero. -/
structure Installs (i : Packet) (key : DirectionKeys) : Prop where
  payload : i.payload = Msg.newkeys
  strict : i.before.strictKex = true
  key : ∃ pk, i.before.pendingKeys = some pk ∧ pk.send = key

/-- An ECDH_REPLY of the server `s` from which the client `c` gets the session id of
    `s`, and the keys `up` to send with and `down` to receive with. -/
def Replies (i : Packet) (s c : Party) (up down : DirectionKeys) : Prop :=
  ∃ ks qS sig, i.payload = Msg.ecdhReply ks qS sig ∧ ks.length < 2 ^ 32 ∧
    ∀ (cc : Connection) (x : Exchange) (pub secret : Block 32), cc.party = c →
      (∀ v, cc.identPeer = some v → v = s.settings.identLocal) → cc.InExchange x →
      x.kex.localPub = some pub → x.kex.secret = some secret →
      let shared := CryptoLib.x25519 secret qS
      let hash := cc.exchangeHash x ks pub qS shared
      s.sessionId = some (cc.sessionId.getD hash) ∧
        cc.exchangeKeys x hash (cc.sessionId.getD hash) shared = ⟨up, down⟩

-- ============================================================================
-- Both sides
-- ============================================================================

/-- Where the server `s` and the client `c` stand, and the messages of key exchanges
    in flight from the server and from the client. -/
inductive Joint : Party → Party → List Packet → List Packet → Prop where
  | idle {s c : Party} (hs : s.kex = none) (hc : c.kex = none) (hid : s.sessionId = c.sessionId) :
      Joint s c [] []
  | serverFirst {s c : Party} {k : KexState} {i : Packet} (hs : Asking s k) (hc : c.kex = none)
      (hi : i.payload = k.ours.raw) (hid : s.sessionId = c.sessionId) : Joint s c [i] []
  | clientFirst {s c : Party} {k : KexState} {i : Packet} (hs : s.kex = none) (hc : Asking c k)
      (hi : i.payload = k.ours.raw) (hid : s.sessionId = c.sessionId) : Joint s c [] [i]
  | both {s c : Party} {k l : KexState} {i j : Packet} (hs : Asking s k) (hc : Asking c l)
      (hi : i.payload = k.ours.raw) (hj : j.payload = l.ours.raw)
      (hid : s.sessionId = c.sessionId) : Joint s c [i] [j]
  /-- The server has the KEXINIT of the client. -/
  | heard {s c : Party} {k l : KexState} {i : Packet} (hs : Agreed s k l.ours.raw)
      (hc : Asking c l) (hi : i.payload = k.ours.raw) (hid : s.sessionId = c.sessionId) :
      Joint s c [i] []
  /-- The client has the KEXINIT of the server. -/
  | invited {s c : Party} {k l : KexState} {i j : Packet} (hs : Asking s k)
      (hc : Agreed c l k.ours.raw) (hi : i.payload = l.ours.raw) (hj : Invites j l)
      (hid : s.sessionId = c.sessionId) : Joint s c [] [i, j]
  | agreed {s c : Party} {k l : KexState} {j : Packet} (hs : Agreed s k l.ours.raw)
      (hc : Agreed c l k.ours.raw) (hj : Invites j l) (hid : s.sessionId = c.sessionId) :
      Joint s c [] [j]
  /-- The server has switched, and the client will. -/
  | replied {s c : Party} {l : KexState} {raw : Bytes} {pk : PendingKeys} {down : DirectionKeys}
      {i j : Packet} (hs : HandedOver s pk) (hc : Agreed c l raw) (hi : Replies i s c pk.recv down)
      (hj : Installs j down) : Joint s c [i, j] []
  | switched {s c : Party} {pk qk : PendingKeys} {i j : Packet} (hs : HandedOver s pk)
      (hc : HandedOver c qk) (hi : Installs i qk.recv) (hj : Installs j pk.recv)
      (hid : s.sessionId = c.sessionId) : Joint s c [i] [j]
  /-- The exchange is over for the client, which may start the next one. -/
  | serverLast {s c : Party} {pk : PendingKeys} {j : Packet} (hs : HandedOver s pk)
      (hc : c.kex = none) (hj : Installs j pk.recv) (hid : s.sessionId = c.sessionId) :
      Joint s c [] [j]
  | serverLate {s c : Party} {pk : PendingKeys} {l : KexState} {j i : Packet}
      (hs : HandedOver s pk) (hc : Asking c l) (hj : Installs j pk.recv)
      (hi : i.payload = l.ours.raw) (hid : s.sessionId = c.sessionId) : Joint s c [] [j, i]
  /-- The exchange is over for the server, which may start the next one. -/
  | clientLast {s c : Party} {qk : PendingKeys} {i : Packet} (hs : s.kex = none)
      (hc : HandedOver c qk) (hi : Installs i qk.recv) (hid : s.sessionId = c.sessionId) :
      Joint s c [i] []
  | clientLate {s c : Party} {qk : PendingKeys} {k : KexState} {i j : Packet} (hs : Asking s k)
      (hc : HandedOver c qk) (hi : Installs i qk.recv) (hj : j.payload = k.ours.raw)
      (hid : s.sessionId = c.sessionId) : Joint s c [i, j] []

omit [CryptoLib] in
/-- A NEWKEYS puts its key in place, with sequence number zero. -/
theorem Installs.after {i : Packet} {key : DirectionKeys} (h : Installs i key) :
    i.after = (i.before.sendInstalls + 1, key, 0) := by
  obtain ⟨pk, hpk, hkey⟩ := h.key
  have hnew : IsMsg .newkeys i.payload := by
    rw [h.payload]
    rfl
  rw [Packet.after, if_pos hnew, if_pos h.strict, hpk, ← hkey]
  rfl

-- ----------------------------------------------------------------------------
-- The kinds of the messages in flight
-- ----------------------------------------------------------------------------

variable {s s' c c' : Party} {k l : KexState} {i j : Packet} {down up : List Packet}
  {r : Role} {key : DirectionKeys} {pk qk : PendingKeys}

omit [CryptoLib] in
theorem Offers.isMsg {k : KexInit} {payload : Bytes} (h : Offers r k) (hp : payload = k.raw) :
    IsMsg .kexinit payload := by
  obtain ⟨cookie, hk⟩ := h
  rw [hp, hk]
  rfl

omit [CryptoLib] in
theorem Invites.isMsg (h : Invites i l) : IsMsg .kexEcdhInit i.payload := by
  obtain ⟨pub, -, hp⟩ := h
  rw [hp]
  rfl

theorem Replies.isMsg {up down : DirectionKeys} (h : Replies i s c up down) :
    IsMsg .kexEcdhReply i.payload := by
  obtain ⟨ks, qS, sig, hp, -⟩ := h
  rw [hp]
  rfl

omit [CryptoLib] in
theorem Installs.isMsg (h : Installs i key) : IsMsg .newkeys i.payload := by
  rw [h.payload]
  rfl

-- ============================================================================
-- Moves of the key exchange
-- ============================================================================

theorem Asking.running (h : Asking s k) (hk : s.kex = none) : False := by
  cases h.kex.symm.trans hk

theorem Agreed.running {raw : Bytes} (h : Agreed s k raw) (hk : s.kex = none) : False := by
  cases h.kex.symm.trans hk

omit [CryptoLib] in
theorem HandedOver.running (h : HandedOver s pk) (hk : s.kex = none) : False := by
  have hsome := h.kex
  rw [hk] at hsome
  cases hsome

namespace Joint

/-- The server starts an exchange. -/
theorem serverStarts (h : Joint s c down up) (hk : s.kex = none) (hs : Asking s' k)
    (hid : s'.sessionId = s.sessionId) (hi : i.payload = k.ours.raw) :
    Joint s' c (down ++ [i]) up := by
  cases h with
  | idle _ hc hsame => exact .serverFirst hs hc hi (hid.trans hsame)
  | clientFirst _ hc hj hsame => exact .both hs hc hi hj (hid.trans hsame)
  | clientLast _ hc hj hsame => exact .clientLate hs hc hj hi (hid.trans hsame)
  | serverFirst ha | both ha | invited ha | clientLate ha => exact (ha.running hk).elim
  | heard ha | agreed ha => exact (ha.running hk).elim
  | replied ha | switched ha | serverLast ha | serverLate ha => exact (ha.running hk).elim

/-- The client starts an exchange. -/
theorem clientStarts (h : Joint s c down up) (hk : c.kex = none) (hc : Asking c' l)
    (hid : c'.sessionId = c.sessionId) (hi : i.payload = l.ours.raw) :
    Joint s c' down (up ++ [i]) := by
  cases h with
  | idle hs _ hsame => exact .clientFirst hs hc hi (hsame.trans hid.symm)
  | serverFirst hs _ hj hsame => exact .both hs hc hj hi (hsame.trans hid.symm)
  | serverLast hs _ hj hsame => exact .serverLate hs hc hj hi (hsame.trans hid.symm)
  | clientFirst _ ha | both _ ha | heard _ ha | serverLate _ ha => exact (ha.running hk).elim
  | invited _ ha | agreed _ ha | replied _ ha => exact (ha.running hk).elim
  | switched _ ha | clientLast _ ha | clientLate _ ha => exact (ha.running hk).elim

/-- A KEXINIT reaches the server, which has sent its own. -/
theorem serverHears (h : Joint s c down (i :: up)) (hm : IsMsg .kexinit i.payload)
    (hk : s.kex = some k) : Asking s k ∧ ∃ l : KexState, Offers c.settings.role l.ours ∧
      i.payload = l.ours.raw ∧ ∀ (s' : Party) (k' : KexState), Agreed s' k' i.payload →
        k'.ours = k.ours → s'.sessionId = s.sessionId → Joint s' c down up := by
  cases h with
  | clientFirst hs hc hi hsame => cases hs.symm.trans hk
  | both hs hc hj hi hsame =>
    cases hs.kex.symm.trans hk
    refine ⟨hs, _, hc.ours, hi, fun s' k' ha hours hid => ?_⟩
    exact .heard (hi ▸ ha) hc (hj.trans (congrArg (·.raw) hours.symm)) (hid.trans hsame)
  | invited hs hc hi hj hsame =>
    cases hs.kex.symm.trans hk
    refine ⟨hs, _, hc.ours, hi, fun s' k' ha hours hid => ?_⟩
    exact .agreed (hi ▸ ha) (hours ▸ hc) hj (hid.trans hsame)
  | agreed hs hc hj hsame => exact absurd (hm.unique hj.isMsg) (by decide)
  | switched hs hc hj hi hsame => exact absurd (hm.unique hi.isMsg) (by decide)
  | serverLast hs hc hj hsame => exact absurd (hm.unique hj.isMsg) (by decide)
  | serverLate hs hc hj hi hsame => exact absurd (hm.unique hj.isMsg) (by decide)

/-- A KEXINIT reaches the client, which has sent its own and goes on with
    ECDH_INIT. -/
theorem clientHears (h : Joint s c (i :: down) up) (hm : IsMsg .kexinit i.payload)
    (hk : c.kex = some l) : Asking c l ∧ ∃ k : KexState, Offers s.settings.role k.ours ∧
      i.payload = k.ours.raw ∧ ∀ (c' : Party) (l' : KexState) (j : Packet),
        Agreed c' l' i.payload → l'.ours = l.ours → Invites j l' →
        c'.sessionId = c.sessionId → Joint s c' down (up ++ [j]) := by
  cases h with
  | serverFirst hs hc hi hsame => cases hc.symm.trans hk
  | both hs hc hi hj hsame =>
    cases hc.kex.symm.trans hk
    refine ⟨hc, _, hs.ours, hi, fun c' l' j' ha hours hinv hid => ?_⟩
    exact .invited hs (hi ▸ ha) (hj.trans (congrArg (·.raw) hours.symm)) hinv
      (hsame.trans hid.symm)
  | heard hs hc hi hsame =>
    cases hc.kex.symm.trans hk
    refine ⟨hc, _, hs.ours, hi, fun c' l' j' ha hours hinv hid => ?_⟩
    exact .agreed (hours ▸ hs) (hi ▸ ha) hinv (hsame.trans hid.symm)
  | replied hs hc hi hj => exact absurd (hm.unique hi.isMsg) (by decide)
  | switched hs hc hi hj hsame => exact absurd (hm.unique hi.isMsg) (by decide)
  | clientLast hs hc hi hsame => exact absurd (hm.unique hi.isMsg) (by decide)
  | clientLate hs hc hi hj hsame => exact absurd (hm.unique hi.isMsg) (by decide)

/-- An ECDH_INIT reaches the server. -/
theorem serverInvited (h : Joint s c down (i :: up)) (hm : IsMsg .kexEcdhInit i.payload) :
    down = [] ∧ up = [] ∧ s.sessionId = c.sessionId ∧ ∃ k l, Agreed s k l.ours.raw ∧
      Agreed c l k.ours.raw ∧ Invites i l := by
  cases h with
  | agreed hs hc hj hsame => exact ⟨rfl, rfl, hsame, _, _, hs, hc, hj⟩
  | clientFirst hs hc hi hsame => exact absurd (hm.unique (hc.ours.isMsg hi)) (by decide)
  | both hs hc hj hi hsame => exact absurd (hm.unique (hc.ours.isMsg hi)) (by decide)
  | invited hs hc hi hj hsame => exact absurd (hm.unique (hc.ours.isMsg hi)) (by decide)
  | switched hs hc hj hi hsame => exact absurd (hm.unique hi.isMsg) (by decide)
  | serverLast hs hc hj hsame => exact absurd (hm.unique hj.isMsg) (by decide)
  | serverLate hs hc hj hi hsame => exact absurd (hm.unique hj.isMsg) (by decide)

/-- An ECDH_REPLY reaches the client. -/
theorem clientReplied (h : Joint s c (i :: down) up) (hm : IsMsg .kexEcdhReply i.payload) :
    up = [] ∧ ∃ j key l raw pk, down = [j] ∧ HandedOver s pk ∧ Agreed c l raw ∧
      Replies i s c pk.recv key ∧ Installs j key := by
  cases h with
  | replied hs hc hi hj => exact ⟨rfl, _, _, _, _, _, rfl, hs, hc, hi, hj⟩
  | serverFirst hs hc hi hsame => exact absurd (hm.unique (hs.ours.isMsg hi)) (by decide)
  | both hs hc hi hj hsame => exact absurd (hm.unique (hs.ours.isMsg hi)) (by decide)
  | heard hs hc hi hsame => exact absurd (hm.unique (hs.ours.isMsg hi)) (by decide)
  | switched hs hc hi hj hsame => exact absurd (hm.unique hi.isMsg) (by decide)
  | clientLast hs hc hi hsame => exact absurd (hm.unique hi.isMsg) (by decide)
  | clientLate hs hc hi hj hsame => exact absurd (hm.unique hi.isMsg) (by decide)

/-- The NEWKEYS of the client reaches the server. -/
theorem serverEnds (h : Joint s c down (i :: up)) (hm : IsMsg .newkeys i.payload) :
    ∃ pk, HandedOver s pk ∧ Installs i pk.recv ∧ ∀ s' : Party, s'.kex = none →
      s'.sessionId = s.sessionId → Joint s' c down up := by
  cases h with
  | switched hs hc hj hi hsame =>
    exact ⟨_, hs, hi, fun s' hk hid => .clientLast hk hc hj (hid.trans hsame)⟩
  | serverLast hs hc hi hsame =>
    exact ⟨_, hs, hi, fun s' hk hid => .idle hk hc (hid.trans hsame)⟩
  | serverLate hs hc hi hj hsame =>
    exact ⟨_, hs, hi, fun s' hk hid => .clientFirst hk hc hj (hid.trans hsame)⟩
  | clientFirst hs hc hi hsame => exact absurd (hm.unique (hc.ours.isMsg hi)) (by decide)
  | both hs hc hj hi hsame => exact absurd (hm.unique (hc.ours.isMsg hi)) (by decide)
  | invited hs hc hi hj hsame => exact absurd (hm.unique (hc.ours.isMsg hi)) (by decide)
  | agreed hs hc hj hsame => exact absurd (hm.unique hj.isMsg) (by decide)

/-- The NEWKEYS of the server reaches the client. -/
theorem clientEnds (h : Joint s c (i :: down) up) (hm : IsMsg .newkeys i.payload) :
    ∃ qk, HandedOver c qk ∧ Installs i qk.recv ∧ ∀ c' : Party, c'.kex = none →
      c'.sessionId = c.sessionId → Joint s c' down up := by
  cases h with
  | switched hs hc hi hj hsame =>
    exact ⟨_, hc, hi, fun c' hk hid => .serverLast hs hk hj (hsame.trans hid.symm)⟩
  | clientLast hs hc hi hsame =>
    exact ⟨_, hc, hi, fun c' hk hid => .idle hs hk (hsame.trans hid.symm)⟩
  | clientLate hs hc hi hj hsame =>
    exact ⟨_, hc, hi, fun c' hk hid => .serverFirst hs hk hj (hsame.trans hid.symm)⟩
  | serverFirst hs hc hi hsame => exact absurd (hm.unique (hs.ours.isMsg hi)) (by decide)
  | both hs hc hi hj hsame => exact absurd (hm.unique (hs.ours.isMsg hi)) (by decide)
  | heard hs hc hi hsame => exact absurd (hm.unique (hs.ours.isMsg hi)) (by decide)
  | replied hs hc hi hj => exact absurd (hm.unique hi.isMsg) (by decide)

/-- With nothing of an exchange in flight, none is running. -/
theorem of_nil (h : Joint s c [] []) : s.kex = none ∧ c.kex = none := by
  cases h with
  | idle hs hc hid => exact ⟨hs, hc⟩

/-- While either end has no exchange running, the two have one session id. -/
theorem sessionId_eq (h : Joint s c down up) (hk : s.kex = none ∨ c.kex = none) :
    s.sessionId = c.sessionId := by
  cases h with
  | idle _ _ hid | serverFirst _ _ _ hid | clientFirst _ _ _ hid | both _ _ _ _ hid => exact hid
  | heard _ _ _ hid | invited _ _ _ _ hid | agreed _ _ _ hid | switched _ _ _ _ hid => exact hid
  | serverLast _ _ _ hid | serverLate _ _ _ _ hid => exact hid
  | clientLast _ _ _ hid | clientLate _ _ _ _ hid => exact hid
  | replied ha hb => exact (hk.elim ha.running hb.running).elim

end Joint

end Ssproxy
