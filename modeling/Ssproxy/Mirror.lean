/-
  Ssproxy.Mirror

  The two ends of one key exchange.  If a client and a server agree on what was
  said, `finish_kex` gives both the same exchange hash and session id, and each
  the keys of the other with the directions swapped.  The other way round, what
  goes into the exchange hash tells what was said.
-/

import Ssproxy.Laws
import Ssproxy.Refine.Kex

namespace Ssproxy

open Lib Wire Connection

variable [CryptoLib]

/-- The client `c` and the server `s` are in one exchange, and each has the
    other's ident line and KEXINIT. -/
structure Mirrored (c s : Connection) (x y : Exchange) (blob : Bytes) : Prop where
  client : c.role = .client
  server : s.role = .server
  clientIn : c.InExchange x
  serverIn : s.InExchange y
  identClient : y.identPeer = c.identLocal
  identServer : x.identPeer = s.identLocal
  kexinitClient : y.theirs.raw = x.kex.ours.raw
  kexinitServer : x.theirs.raw = y.kex.ours.raw
  c2s : y.c2s = x.c2s
  s2c : y.s2c = x.s2c
  clientBlob : c.peerKs = some blob
  serverBlob : s.peerKs = some blob
  sessionId : s.sessionId = c.sessionId

namespace Mirrored

variable {c s : Connection} {x y : Exchange} {blob : Bytes} (qC qS shared : Block 32)

/-- Both hash the same transcript. -/
theorem exchangeHash (h : Mirrored c s x y blob) :
    s.exchangeHash y blob qC qS shared = c.exchangeHash x blob qC qS shared := by
  unfold Connection.exchangeHash
  rw [h.client, h.server]
  dsimp only
  rw [h.identClient, h.identServer, h.kexinitClient, h.kexinitServer]

/-- The keys of the one end are the keys of the other, the directions swapped. -/
theorem exchangeKeys (h : Mirrored c s x y blob) (hash sid : Bytes) :
    s.exchangeKeys y hash sid shared
      = ⟨(c.exchangeKeys x hash sid shared).recv, (c.exchangeKeys x hash sid shared).send⟩ := by
  unfold Connection.exchangeKeys
  rw [h.client, h.server]
  dsimp only
  rw [h.c2s, h.s2c]

end Mirrored

/-- A client derives its sending key for the cipher of its own direction. -/
theorem exchangeKeys_kind {c : Connection} (x : Exchange) (hash sid : Bytes)
    (shared : Block 32) (hr : c.role = .client) :
    (c.exchangeKeys x hash sid shared).send.kind = x.c2s ∧
      (c.exchangeKeys x hash sid shared).recv.kind = x.s2c := by
  unfold Connection.exchangeKeys
  rw [hr]
  exact ⟨(makeKeys_apply _ _ _ _ _ _).1, (makeKeys_apply _ _ _ _ _ _).1⟩

/-- `finish_kex` on the two ends of an exchange, the first one or a later one. -/
theorem finishKex_mirrored {c s : Conn} {x y : Exchange} {blob : Bytes} (qC qS shared : Block 32)
    (h : Mirrored c.now s.now x y blob) : ∃ c' s' hash up down,
    finishKex qC qS shared c = .ok () c' ∧ finishKex qC qS shared s = .ok () s' ∧
      c'.now.lastH = some hash ∧ s'.now.lastH = some hash ∧
      c'.now.sessionId = some (c.now.sessionId.getD hash) ∧
      s'.now.sessionId = some (c.now.sessionId.getD hash) ∧
      c'.now.pendingKeys = some ⟨up, down⟩ ∧ s'.now.pendingKeys = some ⟨down, up⟩ ∧
      up.kind = x.c2s ∧ down.kind = x.s2c := by
  let hash := c.now.exchangeHash x blob qC qS shared
  let sid := c.now.sessionId.getD hash
  let keys := c.now.exchangeKeys x hash sid shared
  have hhash : s.now.exchangeHash y blob qC qS shared = hash := h.exchangeHash qC qS shared
  have hkeys : s.now.exchangeKeys y hash sid shared = ⟨keys.recv, keys.send⟩ :=
    h.exchangeKeys shared hash sid
  obtain ⟨hup, hdown⟩ := exchangeKeys_kind x hash sid shared h.client
  refine ⟨_, _, hash, keys.send, keys.recv, finishKex_apply qC qS shared h.clientIn h.clientBlob,
    finishKex_apply qC qS shared h.serverIn h.serverBlob, rfl, ?_, rfl, ?_, rfl, ?_, hup, hdown⟩
  · exact congrArg some hhash
  · simp only [finished, hhash, h.sessionId]
  · simp only [finished, hhash, h.sessionId]
    exact congrArg some hkeys

namespace Toy

/-- An exchange with a different cipher in each direction. -/
def exchange (ours theirs : KexInit) (identPeer : String) : Exchange :=
  ⟨⟨ours, some theirs, none, none, some .chaCha20Poly1305, some .aes256Gcm⟩, theirs, identPeer,
    .chaCha20Poly1305, .aes256Gcm⟩

def kexinitOf (kex : List String) : KexInit :=
  KexInit.build (.zero 16) kex serverHostKey serverCiphers serverMacs

/-- A client in that exchange, in a session that had one before. -/
def midClient : Connection :=
  { Setup.blank (.client client) rng with
    identPeer := some server.ident
    sessionId := some [1]
    peerKs := some [2]
    kex := some (exchange (kexinitOf clientKex) (kexinitOf serverKex) server.ident).kex }

/-- The server on the other side. -/
def midServer : Connection :=
  { Setup.blank (.server server) rng with
    identPeer := some client.ident
    sessionId := some [1]
    peerKs := some [2]
    kex := some (exchange (kexinitOf serverKex) (kexinitOf clientKex) client.ident).kex }

end Toy

omit [CryptoLib] in
/-- A rekey of a session whose id is `[1]`. -/
theorem finishKex_mirrored_rekey : ∃ c' s' : Conn,
    @finishKex Toy.lib (.zero 32) (.zero 32) (.zero 32) ⟨Toy.midClient, []⟩ = .ok () c' ∧
      @finishKex Toy.lib (.zero 32) (.zero 32) (.zero 32) ⟨Toy.midServer, []⟩ = .ok () s' ∧
      c'.now.sessionId = some [1] ∧ s'.now.sessionId = some [1] ∧
      ∃ up down, c'.now.pendingKeys = some ⟨up, down⟩ ∧ s'.now.pendingKeys = some ⟨down, up⟩ ∧
        up.kind = .chaCha20Poly1305 ∧ down.kind = .aes256Gcm := by
  have hm : @Mirrored Toy.midClient Toy.midServer
      (Toy.exchange (Toy.kexinitOf clientKex) (Toy.kexinitOf serverKex) Toy.server.ident)
      (Toy.exchange (Toy.kexinitOf serverKex) (Toy.kexinitOf clientKex) Toy.client.ident) [2] :=
    ⟨rfl, rfl, ⟨rfl, rfl, rfl, rfl, rfl⟩, ⟨rfl, rfl, rfl, rfl, rfl⟩, rfl, rfl, rfl, rfl, rfl, rfl,
      rfl, rfl, rfl⟩
  obtain ⟨c', s', hash, up, down, hc, hs, -, -, hsc, hss, hpc, hps, hup, hdown⟩ :=
    @finishKex_mirrored Toy.lib ⟨Toy.midClient, []⟩ ⟨Toy.midServer, []⟩ _ _ [2] (.zero 32)
      (.zero 32) (.zero 32) hm
  exact ⟨c', s', hc, hs, hsc, hss, up, down, hpc, hps, hup, hdown⟩

-- ============================================================================
-- The transcript
-- ============================================================================

/-- The arguments of `compute_h`. -/
structure Transcript where
  vC : String
  vS : String
  iC : Bytes
  iS : Bytes
  kS : Bytes
  qC : Bytes
  qS : Bytes
  kMpint : Bytes

namespace Transcript

/-- The buffer `compute_h` hashes. -/
def buf (t : Transcript) : Bytes :=
  putStr t.vC ++ putStr t.vS ++ putBytes t.iC ++ putBytes t.iS ++ putBytes t.kS
    ++ putBytes t.qC ++ putBytes t.qS ++ t.kMpint

/-- Every field with a length in front of it fits that length. -/
structure Fits (t : Transcript) : Prop where
  vC : (strBytes t.vC).length < 2 ^ 32
  vS : (strBytes t.vS).length < 2 ^ 32
  iC : t.iC.length < 2 ^ 32
  iS : t.iS.length < 2 ^ 32
  kS : t.kS.length < 2 ^ 32
  qC : t.qC.length < 2 ^ 32
  qS : t.qS.length < 2 ^ 32

/-- `compute_h` hashes the buffer, and the buffer determines every field: each
    length says where its field ends, and the shared secret is what is left. -/
theorem computeH_unambiguous :
    (∀ t : Transcript, computeH t.vC t.vS t.iC t.iS t.kS t.qC t.qS t.kMpint
      = CryptoLib.sha256 t.buf) ∧
    ∀ t t' : Transcript, t.Fits → t'.Fits → t.buf = t'.buf → t = t' := by
  refine ⟨fun _ => rfl, fun t t' h h' heq => ?_⟩
  cases t
  cases t'
  simp only [buf, putStr, List.append_assoc] at heq
  obtain ⟨hvC, heq⟩ := putBytes_append_inj h.vC h'.vC heq
  obtain ⟨hvS, heq⟩ := putBytes_append_inj h.vS h'.vS heq
  obtain ⟨hiC, heq⟩ := putBytes_append_inj h.iC h'.iC heq
  obtain ⟨hiS, heq⟩ := putBytes_append_inj h.iS h'.iS heq
  obtain ⟨hkS, heq⟩ := putBytes_append_inj h.kS h'.kS heq
  obtain ⟨hqC, heq⟩ := putBytes_append_inj h.qC h'.qC heq
  obtain ⟨hqS, hmpint⟩ := putBytes_append_inj h.qS h'.qS heq
  obtain rfl := strBytes_injective hvC
  obtain rfl := strBytes_injective hvS
  dsimp only at hiC hiS hkS hqC hqS
  rw [hiC, hiS, hkS, hqC, hqS, hmpint]

/-- A transcript with short fields. -/
def short (kS : Bytes) : Transcript := ⟨"SSH-2.0-a", "SSH-2.0-b", [1], [2], kS, [4], [5], [6]⟩

omit [CryptoLib] in
theorem fits_short {kS : Bytes} (h : kS.length < 2 ^ 32) : (short kS).Fits := by
  have hident : (strBytes "SSH-2.0-a").length < 2 ^ 32 ∧ (strBytes "SSH-2.0-b").length < 2 ^ 32 := by
    decide
  have hone : ∀ b : UInt8, [b].length < 2 ^ 32 := fun b => by simp
  exact ⟨hident.1, hident.2, hone 1, hone 2, h, hone 4, hone 5⟩

omit [CryptoLib] in
theorem computeH_unambiguous_short : (short [3]).buf ≠ (short [3, 0]).buf := by
  intro heq
  have h := (@computeH_unambiguous Toy.lib).2 (short [3]) (short [3, 0]) (fits_short (by decide))
    (fits_short (by decide)) heq
  cases h

end Transcript

end Ssproxy
