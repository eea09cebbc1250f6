/-
  Ssproxy.Framing

  The packet layer of the two ends of one direction.  What `queue_msg` seals,
  `try_one_packet` on the other end hands to the handler, with any bytes behind
  it; afterwards the two ends are in step again.  For data the length that is
  announced is one the other end accepts, as long as the chunk leaves room for
  the header and the padding.
-/

import Ssproxy.Laws
import Ssproxy.Isolation

namespace Ssproxy

open Lib Wire Connection Proc

-- ============================================================================
-- Padding
-- ============================================================================

/-- A packet with `payloadLen` bytes and `pad` bytes of padding fills whole
    blocks; the length field counts in the clear only. -/
def CipherKind.Aligns (kind : CipherKind) (payloadLen pad : Nat) : Prop :=
  ((if kind.isAead then 0 else 4) + 1 + payloadLen + pad) % kind.blockSize = 0

/-- The padding is the least that fills the last block and is not below four. -/
theorem paddingLen_least (kind : CipherKind) (n : Nat) :
    4 ≤ paddingLen n kind.blockSize kind.isAead ∧
      kind.Aligns n (paddingLen n kind.blockSize kind.isAead) ∧
      (∀ p, 4 ≤ p → kind.Aligns n p → paddingLen n kind.blockSize kind.isAead ≤ p) ∧
      paddingLen n kind.blockSize kind.isAead < 256 := by
  have hblock : kind.blockSize = 8 ∨ kind.blockSize = 16 := by
    cases kind <;> simp [CipherKind.blockSize]
  have h8 : max 8 8 = 8 := rfl
  have h16 : max 16 8 = 16 := rfl
  unfold CipherKind.Aligns paddingLen
  rcases hblock with hb | hb <;> rw [hb] <;> cases kind.isAead <;>
    simp only [Bool.false_eq_true, if_false, if_true, h8, h16] <;> split <;>
    refine ⟨by omega, by omega, fun p hp ha => by omega, by omega⟩

variable [CryptoLib]

-- ============================================================================
-- The ciphers
-- ============================================================================

namespace ChaCha20Poly1305Ssh

/-- The keystream, applied twice. -/
theorem applyKeystream_twice (key : Block 32) (seq : UInt32) (start : Nat) (data : Bytes) :
    applyKeystream key seq start (applyKeystream key seq start data) = data := by
  unfold applyKeystream
  apply List.ext_getElem
  · simp
  · intro i h1 h2
    simp only [List.getElem_mapIdx, UInt8.xor_assoc, UInt8.xor_self, UInt8.xor_zero]

end ChaCha20Poly1305Ssh

/-- What AES-GCM decrypts is what `open` returns, behind the length field. -/
theorem AesGcmSsh.openBuf_of_decrypt {a : AesGcmSsh} {buf aad body plain : Bytes} {tag : Block 16}
    (hlen : 4 ≤ buf.length) (haad : buf.take 4 = aad) (hbody : buf.drop 4 = body)
    (h : (CryptoLib.aesGcmDecrypt a.inner.key a.iv aad body tag).map Subtype.val = some plain) :
    a.openBuf buf tag.val = .ok (a.incIv, aad ++ plain) := by
  subst haad hbody
  obtain ⟨r, hr, rfl⟩ := Option.map_eq_some_iff.mp h
  unfold AesGcmSsh.openBuf
  rw [if_neg (Nat.not_lt.mpr hlen), Block.ofBytes?_of_length tag.property]
  simp only [Subtype.eta, hr]

namespace DirectionKeys

open ChaCha20Poly1305Ssh

variable {keys keys' : DirectionKeys} {seq : UInt32} {buf tagOut pkt tag : Bytes}

/-- The receiver reads the length field before anything else. -/
theorem decryptLength_sealed (hs : keys.sealBuf seq buf tagOut = .ok (keys', pkt, tag))
    (hlen : 4 ≤ buf.length) : keys.decryptLength seq (pkt.take 4) = buf.take 4 := by
  have htake : (buf.take 4).length = 4 := by
    rw [List.length_take, Nat.min_eq_left hlen]
  cases keys with
  | clear =>
    cases hs
    rfl
  | chaCha k =>
    simp only [sealBuf, ChaCha20Poly1305Ssh.sealBuf] at hs
    split at hs
    · cases hs
    · cases hs
      have hfirst : (k.decryptLength seq (buf.take 4)).length = 4 := by
        rw [ChaCha20Poly1305Ssh.decryptLength, length_applyKeystream, htake]
      rw [List.take_left' hfirst]
      exact applyKeystream_twice _ _ _ _
  | aes a =>
    simp only [sealBuf, AesGcmSsh.sealBuf] at hs
    split at hs
    · cases hs
    · split at hs
      · cases hs
      · cases hs
        exact List.take_left' htake

/-- Opening undoes sealing, and the cipher moves on in the same way. -/
theorem openBuf_sealed [CryptoLaws]
    (hs : keys.sealBuf seq buf tagOut = .ok (keys', pkt, tag)) (hlen : 4 ≤ buf.length)
    (htag : tagOut.length = keys.kind.tagLen) : keys.openBuf seq pkt tag = .ok (keys', buf) := by
  have htake : (buf.take 4).length = 4 := by
    rw [List.length_take, Nat.min_eq_left hlen]
  cases keys with
  | clear =>
    cases hs
    have hnil : tagOut = [] := List.length_eq_zero_iff.mp htag
    simp [openBuf, hnil]
  | chaCha k =>
    have hpkt : pkt.length = buf.length := (sealBuf_length hs).1
    simp only [sealBuf, ChaCha20Poly1305Ssh.sealBuf] at hs
    split at hs
    · cases hs
    · cases hs
      have h16 : tagOut.drop Ssproxy.tagLen = [] := List.drop_eq_nil_of_le (Nat.le_of_eq htag)
      have hfirst : (k.decryptLength seq (buf.take 4)).length = 4 := by
        rw [ChaCha20Poly1305Ssh.decryptLength, length_applyKeystream, htake]
      simp only [openBuf, ChaCha20Poly1305Ssh.openBuf, h16, List.append_nil]
      rw [if_neg (by
        rintro (hshort | hno)
        · exact absurd hlen (Nat.not_le.mpr (Nat.lt_of_le_of_lt (Nat.le_of_eq hpkt.symm) hshort))
        · exact hno (CryptoLib.poly1305 _ _).property), if_neg (fun hno => hno rfl),
        List.take_left' hfirst, List.drop_left' hfirst]
      have hbody : k.decryptLength seq (k.decryptLength seq (buf.take 4))
          ++ k.applyPayload seq (k.applyPayload seq (buf.drop 4)) = buf := by
        simp only [ChaCha20Poly1305Ssh.decryptLength, applyPayload, applyKeystream_twice,
          List.take_append_drop]
      rw [hbody]
      rfl
  | aes a =>
    have hpkt : pkt.length = buf.length := (sealBuf_length hs).1
    have htag' : tagOut.length = 16 := by
      have hkind := a.kind_eq
      simp only [kind, hkind] at htag
      cases hi : a.inner with
      | aes128 k =>
        rw [hi] at htag
        exact htag
      | aes256 k =>
        rw [hi] at htag
        exact htag
    simp only [sealBuf, AesGcmSsh.sealBuf] at hs
    split at hs
    · cases hs
    · split at hs
      · cases hs
      · cases hs
        have h16 : tagOut.drop 16 = [] := List.drop_eq_nil_of_le (Nat.le_of_eq htag')
        have hwhole := AesGcmSsh.openBuf_of_decrypt (hpkt.symm ▸ hlen)
          (List.take_left' htake) (List.drop_left' htake)
          (CryptoLaws.aesGcm_open a.inner.key a.iv (buf.take 4) (buf.drop 4))
        rw [List.take_append_drop] at hwhole
        simp only [openBuf, h16, List.append_nil, hwhole]
        rfl

end DirectionKeys

-- ============================================================================
-- Taking one packet
-- ============================================================================

namespace Connection

/-- A whole packet at the front of `read_buf`, described by its plain text. -/
structure Arrived (c : Connection) (len : UInt32) (pad : UInt8) (payload : Bytes)
    (cipher : DirectionKeys) (pkt tag rest : Bytes) : Prop where
  buf : c.readBuf = pkt ++ tag ++ rest
  whole : pkt.length = 4 + len.toNat
  tagged : tag.length = c.recvCipher.kind.tagLen
  announced : c.recvCipher.decryptLength c.recvSeq (pkt.take 4) = beBytes len
  most : len.toNat ≤ Ssproxy.maxPacket
  opens : ∃ padding : Bytes, padding.length = pad.toNat ∧
    c.recvCipher.openBuf c.recvSeq pkt tag
      = .ok (cipher, beBytes len ++ (pad :: payload) ++ padding)
  padded : 4 ≤ pad.toNat
  filled : payload ≠ []

/-- `try_one_packet` up to the handler, on a whole packet. -/
theorem takePacket_apply {c : Conn} {len : UInt32} {pad : UInt8} {payload : Bytes}
    {cipher : DirectionKeys} {pkt tag rest : Bytes}
    (h : Arrived c.now len pad payload cipher pkt tag rest) :
    takePacket c
      = .ok (some payload) ⟨c.now.received cipher rest (pkt ++ tag).length, c.log⟩ := by
  obtain ⟨padding, hpadding, hopen⟩ := h.opens
  have hbody := DirectionKeys.openBuf_length hopen
  have hpkt := h.whole
  have htag := h.tagged
  have hpad := h.padded
  simp only [List.length_append, List.length_cons, length_beBytes, hpadding] at hbody
  have hpos := List.length_pos_iff.mpr h.filled
  have hbuf : c.now.readBuf.length = 4 + len.toNat + tag.length + rest.length := by
    rw [h.buf, List.length_append, List.length_append, hpkt]
  have hfront : (c.now.readBuf.drop 0).take (4 - 0) = pkt.take 4 := by
    rw [h.buf, List.append_assoc]
    exact List.take_append_of_le_length (by omega)
  have hsplit : c.now.readBuf.take (4 + len.toNat + tag.length) = pkt ++ tag ∧
      c.now.readBuf.drop (4 + len.toNat + tag.length) = rest := by
    have hl : (pkt ++ tag).length = 4 + len.toNat + tag.length := by
      rw [List.length_append, hpkt]
    rw [h.buf, ← hl]
    exact ⟨List.take_left, List.drop_left⟩
  have hrange : ¬(len < 4 ∨ len.toNat > Ssproxy.maxPacket) := by
    rintro (hlow | hhigh)
    · have hlow := UInt32.lt_iff_toNat_lt.mp hlow
      have h4 : (4 : UInt32).toNat = 4 := rfl
      omega
    · exact absurd h.most (Nat.not_le.mpr hhigh)
  unfold takePacket
  simp only [Proc.bind_apply, Traced.read_apply, Outcome.bind_ok, Proc.ite_apply]
  rw [if_neg (by omega), Proc.slice_of_le (Nat.zero_le 4) (by omega), hfront]
  simp only [Outcome.bind_ok, h.announced]
  rw [Proc.bind_of_ok (beU32_beBytes len c)]
  simp only [Proc.bind_apply, Proc.failIf_apply, if_neg hrange, Outcome.bind_ok, Proc.ite_apply,
    ← htag]
  rw [if_neg (by omega), Proc.splitAt_of_le (by omega), Outcome.bind_ok, hsplit.1, hsplit.2]
  simp only [Proc.bind_apply, Outcome.bind_ok, Traced.update_apply]
  rw [← hpkt, Proc.splitAt_left, Outcome.bind_ok, hopen]
  simp only [Proc.ofExcept_ok, Outcome.bind_ok, Proc.bind_apply, Traced.update_apply]
  have hcopy : ∀ s : Conn, (Proc.copyInto (beBytes len ++ pad :: payload ++ padding) 0 (beBytes len)
      : ConnM Bytes) s = .ok (beBytes len ++ pad :: payload ++ padding) s := by
    intro s
    have hmid : (Proc.copyInto ([] ++ beBytes len ++ (pad :: payload ++ padding)) 0 (beBytes len)
        : ConnM Bytes) s = .ok ([] ++ beBytes len ++ (pad :: payload ++ padding)) s :=
      Proc.copyInto_middle rfl s
    rw [List.nil_append, ← List.append_assoc] at hmid
    exact hmid
  have hindex : (beBytes len ++ pad :: payload ++ padding ++ tag)[4]? = some pad := rfl
  have hdrop : (beBytes len ++ pad :: payload ++ padding ++ tag).drop 5
      = payload ++ padding ++ tag := rfl
  have hlen : (beBytes len ++ pad :: payload ++ padding ++ tag).length
      = 5 + payload.length + padding.length + tag.length := by
    simp only [List.length_append, List.length_cons, length_beBytes]
    omega
  have hpadok : ¬pad < 4 := Nat.not_lt.mpr hpad
  rw [hcopy, Outcome.bind_ok, Proc.index, hindex, Proc.bind_of_ok (Proc.unwrap_some _ _)]
  simp only [Proc.bind_apply, Proc.failIf_apply, if_neg hpadok, Outcome.bind_ok]
  rw [if_neg (by omega), Outcome.bind_ok, Proc.bind_of_ok (Proc.checkedSub_of_le (by omega) _),
    Proc.bind_of_ok (Proc.splitAt_of_le (by omega) _),
    Proc.bind_of_ok (Proc.checkedSub_of_le (by omega) _)]
  have htake : (payload ++ padding ++ tag).take (pkt.length - pad.toNat - 5) = payload := by
    rw [List.append_assoc]
    exact List.take_left' (by omega)
  simp only [Proc.bind_apply, Proc.failIf_apply, hdrop, htake]
  rw [if_neg h.filled, List.length_append]
  rfl

-- ============================================================================
-- The read side, while a packet is handled
-- ============================================================================

omit [CryptoLib] in
theorem elsewhere_inbound (id : UInt32) : Elsewhere id inbound where
  sent _ _ _ _ := rfl
  drew _ _ := rfl
  put _ _ := rfl
  dropped _ := rfl
  pushed _ _ := rfl

theorem inbound_queueMsg (owner : Option UInt32) (payload : Bytes) (priority : Bool) :
    Spared inbound (queueMsg owner payload priority) :=
  (elsewhere_inbound 0).queueMsg owner payload priority

omit [CryptoLib] in
theorem inbound_pushEvent (ev : Event) : Spared inbound (pushEvent ev) :=
  (elsewhere_inbound 0).pushEvent ev

omit [CryptoLib] in
/-- An update that leaves the read side alone. -/
theorem inbound_update {g : Connection → Connection} (h : ∀ c, (g c).inbound = c.inbound) :
    Spared inbound (Traced.update g : ConnM Unit) := Traced.keeps_update h

omit [CryptoLib] in
theorem inbound_fillBytes (n : Nat) : Spared inbound (fillBytes n) :=
  Traced.keeps_read.bind fun _ => (inbound_update (by intro; rfl)).bind fun _ => keeps_pure _

omit [CryptoLib] in
theorem inbound_allocChannel (ch : Channel) : Spared inbound (allocChannel ch) :=
  (keeps_focus (by intros; rfl) _).bind fun _ => (Traced.keeps_observe _).bind fun _ => keeps_pure _

-- key exchange

theorem inbound_startKex : Spared inbound startKex := by
  have hephemeral : Spared inbound clientEphemeral :=
    Traced.keeps_read.bind fun _ =>
      keeps_ite ((inbound_fillBytes 32).bind fun _ => keeps_pure _) (keeps_pure _)
  exact Traced.keeps_read.bind fun _ => (inbound_fillBytes 16).bind fun _ =>
    (inbound_queueMsg _ _ _).bind fun _ => (inbound_update (by intro; rfl)).bind fun _ =>
      hephemeral.bind fun _ => inbound_update (by intro; rfl)

theorem inbound_flushPostRekey : Spared inbound flushPostRekey :=
  Traced.keeps_read.bind fun _ => Keeps.forEach (fun id =>
    (elsewhere_inbound id).maybeAdjust.bind fun _ =>
      (elsewhere_inbound id).flushPending.bind fun _ =>
        (elsewhere_inbound id).emitEofIfReady.ignore.bind fun _ =>
          (elsewhere_inbound id).emitCloseIfReady.ignore) _

theorem inbound_tryCompleteKex : Spared inbound tryCompleteKex := by
  refine Traced.keeps_read.bind fun c => keeps_ite (keeps_pure ()) ?_
  refine (inbound_update (by intro; rfl)).bind fun _ => (Traced.keeps_observe _).bind fun _ => ?_
  refine keeps_ite ?_ ?_
  · refine (inbound_update (by intro; rfl)).bind fun _ => keeps_ite ?_ ?_
    · exact (inbound_queueMsg _ _ _).bind fun _ => keeps_ite (inbound_queueMsg _ _ _) (keeps_pure _)
    · exact (keeps_pure _).bind fun _ => keeps_ite (inbound_queueMsg _ _ _) (keeps_pure _)
  · exact (inbound_update (by intro; rfl)).bind fun _ => inbound_flushPostRekey.bind fun _ =>
      inbound_update (by intro; rfl)

theorem inbound_sendNewkeys : Spared inbound sendNewkeys := by
  refine (inbound_queueMsg _ _ _).bind fun _ => (inbound_update fun c => ?_).bind fun _ =>
    inbound_tryCompleteKex
  unfold switchSend
  cases c.pendingKeys <;> simp only <;> split <;> rfl

theorem inbound_makeKeys (kMpint h sid : Bytes) (keyLetter ivLetter : UInt8) (kind : CipherKind) :
    Spared inbound (makeKeys kMpint h sid keyLetter ivLetter kind) := by
  have hiv : ∀ key : Bytes, Spared inbound (do
      let iv ← deriveBlock kMpint h sid ivLetter (if kind.ivLen = 0 then 8 else kind.ivLen)
      let iv := if kind.ivLen = 0 then [] else iv.take kind.ivLen
      Proc.ofExcept (DirectionKeys.fromMaterial kind key iv) : ConnM DirectionKeys) := fun _ =>
    (keeps_slice _ _ _).bind fun _ => keeps_ofExcept _
  exact keeps_ite ((keeps_slice _ _ _).bind hiv) ((keeps_pure _).bind hiv)

theorem inbound_finishKex (qC qS shared : Block 32) : Spared inbound (finishKex qC qS shared) := by
  refine Traced.keeps_read.bind fun c => (keeps_okOr _ _).bind fun kex =>
    (keeps_okOr _ _).bind fun theirs => (keeps_unwrap _).bind fun identPeer => ?_
  refine (keeps_okOr _ _).bind fun ks => (inbound_update (by intro; rfl)).bind fun _ =>
    Traced.keeps_read.bind fun c' => (keeps_unwrap _).bind fun sid => (keeps_okOr _ _).bind fun c2s =>
      (keeps_okOr _ _).bind fun s2c => ?_
  exact (inbound_makeKeys _ _ _ _ _ _).bind fun _ => (inbound_makeKeys _ _ _ _ _ _).bind fun _ =>
    inbound_update (by intro; rfl)

theorem inbound_acceptKexinit (theirs : KexInit) : Spared inbound (acceptKexinit theirs) := by
  have hinit : Spared inbound sendEcdhInit :=
    Traced.keeps_read.bind fun _ => (keeps_okOr _ _).bind fun _ => inbound_queueMsg _ _ _
  exact Traced.keeps_read.bind fun _ => (keeps_unwrap _).bind fun _ => (keeps_okOr _ _).bind fun _ =>
    (keeps_okOr _ _).bind fun _ => (keeps_okOr _ _).bind fun _ => (keeps_failIf _ _).bind fun _ =>
      (keeps_okOr _ _).bind fun _ => (keeps_okOr _ _).bind fun _ =>
        (inbound_update (by intro; rfl)).bind fun _ => (inbound_update (by intro; rfl)).bind fun _ =>
          keeps_ite hinit (keeps_pure _)

theorem inbound_onEcdhInit (p : Bytes) : Spared inbound (onEcdhInit p) :=
  Traced.keeps_read.bind fun _ => (keeps_failIf _ _).bind fun _ => (keeps_call _ _).bind fun _ =>
    (keeps_failIf _ _).bind fun _ => (keeps_call _ _).bind fun _ => (keeps_failIf _ _).bind fun _ =>
      (keeps_unwrap _).bind fun _ => (inbound_fillBytes 32).bind fun _ =>
        (keeps_failIf _ _).bind fun _ => (keeps_failIf _ _).bind fun _ =>
          (keeps_unwrap _).bind fun _ => (inbound_update (by intro; rfl)).bind fun _ =>
            (inbound_finishKex _ _ _).bind fun _ => Traced.keeps_read.bind fun _ =>
              (keeps_unwrap _).bind fun _ => (inbound_queueMsg _ _ _).bind fun _ =>
                inbound_sendNewkeys

theorem inbound_onEcdhReply (p : Bytes) : Spared inbound (onEcdhReply p) :=
  Traced.keeps_read.bind fun _ => (keeps_failIf _ _).bind fun _ => (keeps_call _ _).bind fun _ =>
    (keeps_failIf _ _).bind fun _ => (keeps_call _ _).bind fun _ => (keeps_call _ _).bind fun _ =>
      (keeps_call _ _).bind fun _ => (keeps_failIf _ _).bind fun _ => (keeps_unwrap _).bind fun _ =>
        (keeps_okOr _ _).bind fun _ => (keeps_okOr _ _).bind fun _ =>
          (inbound_update (by intro; rfl)).bind fun _ => (keeps_failIf _ _).bind fun _ =>
            (inbound_update (by intro; rfl)).bind fun _ => (inbound_finishKex _ _ _).bind fun _ =>
              inbound_sendNewkeys

-- the other handlers

theorem inbound_disconnect (reason : UInt32) (msg : String) :
    Spared inbound (disconnect reason msg) :=
  Traced.keeps_read.bind fun _ => keeps_ite (keeps_pure ()) ((inbound_queueMsg _ _ _).ignore.bind fun _ =>
    (inbound_update (by intro; rfl)).bind fun _ => inbound_pushEvent _)

theorem inbound_authFail (cfg : ServerConfig) : Spared inbound (authFail cfg) :=
  Traced.keeps_read.bind fun _ => keeps_ite (inbound_disconnect _ _) (inbound_queueMsg _ _ _)

theorem inbound_onUserauthRequest (p : Bytes) : Spared inbound (onUserauthRequest p) := by
  refine Traced.keeps_read.bind fun c => keeps_ite (keeps_pure ()) ?_
  refine (keeps_unwrap _).bind fun cfg => (keeps_call _ _).bind fun _ => (keeps_call _ _).bind fun _ =>
    (keeps_call _ _).bind fun _ => (keeps_call _ _).bind fun _ => (keeps_failIf _ _).bind fun _ => ?_
  refine keeps_ite (inbound_authFail cfg) (keeps_ite (inbound_authFail cfg) ?_)
  refine (keeps_call _ _).bind fun _ => keeps_ite (inbound_authFail cfg) ?_
  refine (keeps_call _ _).bind fun _ => (Traced.keeps_observe _).bind fun _ => keeps_ite ?_ ?_
  · exact (inbound_update (by intro; rfl)).bind fun _ => (Traced.keeps_observe _).bind fun _ =>
      (inbound_queueMsg _ _ _).bind fun _ => inbound_pushEvent _
  · exact (inbound_update (by intro; rfl)).bind fun _ => inbound_authFail cfg

theorem inbound_onChannelOpen (p : Bytes) : Spared inbound (onChannelOpen p) := by
  refine Traced.keeps_read.bind fun c => (keeps_failIf _ _).bind fun _ => (keeps_call _ _).bind fun _ =>
    (keeps_call _ _).bind fun _ => (keeps_call _ _).bind fun _ => (keeps_call _ _).bind fun _ =>
      (keeps_call _ _).bind fun _ => keeps_ite ?_ (keeps_ite ?_ ?_)
  · exact (inbound_allocChannel _).bind fun _ => inbound_pushEvent _
  · exact (keeps_call _ _).bind fun _ => (keeps_call _ _).bind fun _ => (keeps_call _ _).bind fun _ =>
      (keeps_call _ _).bind fun _ => (inbound_allocChannel _).bind fun _ => inbound_pushEvent _
  · exact inbound_queueMsg _ _ _

/-- Only NEWKEYS changes the read side. -/
theorem inbound_handlePayload {p : Bytes} (h : ¬IsMsg .newkeys p) :
    Spared inbound (handlePayload p) := by
  have helse : ∀ id, addressee p = some id → Elsewhere id inbound := fun id _ =>
    elsewhere_inbound id
  intro c c' hend
  cases p with
  | nil => cases hend
  | cons t r =>
    unfold handlePayload at hend
    rw [Proc.bind_of_ok (Proc.index_of_lt (Nat.zero_lt_succ _) c), List.getElem_cons_zero] at hend
    revert c c' hend
    change Spared inbound _
    cases hm : MsgType.ofCode t with
    | none => exact Traced.keeps_read.bind fun _ => inbound_queueMsg _ _ _
    | some m =>
      cases m with
      | disconnect =>
        exact (keeps_call _ _).bind fun _ => (keeps_callOr _ _ _).bind fun _ =>
          (keeps_callOr _ _ _).bind fun _ => (inbound_update (by intro; rfl)).bind fun _ =>
            inbound_pushEvent _
      | kexinit =>
        exact ((keeps_call _ _).bind fun _ => keeps_pure _).bind fun theirs =>
          Keeps.bind (Traced.keeps_read.bind fun _ => keeps_ite inbound_startKex (keeps_pure ()))
            fun _ => inbound_acceptKexinit theirs
      | kexEcdhInit => exact inbound_onEcdhInit _
      | kexEcdhReply => exact inbound_onEcdhReply _
      | newkeys =>
        rw [MsgType.code_of_ofCode hm] at h
        exact absurd rfl h
      | serviceRequest =>
        exact Traced.keeps_read.bind fun _ => keeps_ite (keeps_pure ()) ((keeps_call _ _).bind fun _ =>
          (keeps_call _ _).bind fun _ => (keeps_failIf _ _).bind fun _ => inbound_queueMsg _ _ _)
      | serviceAccept =>
        exact Traced.keeps_read.bind fun _ => keeps_ite (keeps_pure ()) ((keeps_unwrap _).bind fun _ =>
          inbound_queueMsg _ _ _)
      | userauthRequest => exact inbound_onUserauthRequest _
      | userauthFailure => exact keeps_throw _
      | userauthSuccess =>
        exact Traced.keeps_read.bind fun _ => (inbound_update (by intro; rfl)).bind fun _ =>
          (Traced.keeps_observe _).bind fun _ => inbound_pushEvent _
      | globalRequest =>
        exact (keeps_call _ _).bind fun _ => (keeps_callOr _ _ _).bind fun _ =>
          (keeps_callOr _ _ _).bind fun _ => keeps_ite
            (keeps_ite (inbound_queueMsg _ _ _) (inbound_queueMsg _ _ _)) (keeps_pure ())
      | channelOpen => exact inbound_onChannelOpen _
      | channelOpenConfirmation => exact spared_onOpenConfirm helse
      | channelOpenFailure => exact spared_onOpenFail helse
      | channelWindowAdjust => exact spared_onWindowAdjust helse
      | channelData => exact spared_onChannelData helse
      | channelExtendedData => exact spared_onExtData helse
      | channelEof => exact spared_onChannelEof helse
      | channelClose => exact spared_onChannelClose helse
      | channelRequest => exact spared_onChannelRequest helse
      | ping =>
        exact (keeps_call _ _).bind fun _ => (keeps_callOr _ _ _).bind fun _ => inbound_queueMsg _ _ _
      | _ => exact keeps_pure ()

/-- A packet fresh from the sender is one the receiver can take. -/
theorem arrived_of_sealed [CryptoLaws] {s r : Connection} {payload rest pkt tag : Bytes}
    {cipher : DirectionKeys}
    (hseal : s.sendCipher.sealBuf s.sendSeq (s.frame payload)
      (List.replicate s.sendCipher.kind.tagLen 0) = .ok (cipher, pkt, tag))
    (hne : payload ≠ []) (hmax : 1 + payload.length + s.padFor payload ≤ Ssproxy.maxPacket)
    (hcipher : r.recvCipher = s.sendCipher) (hseq : r.recvSeq = s.sendSeq)
    (hbuf : r.readBuf = pkt ++ tag ++ rest) :
    Arrived r (UInt32.ofNat (1 + payload.length + s.padFor payload))
      (UInt8.ofNat (s.padFor payload)) payload cipher pkt tag rest := by
  have hleast := paddingLen_least s.sendCipher.kind payload.length
  have hpad : (UInt8.ofNat (s.padFor payload)).toNat = s.padFor payload :=
    UInt8.toNat_ofNat_of_lt hleast.2.2.2
  have hlen : (UInt32.ofNat (1 + payload.length + s.padFor payload)).toNat
      = 1 + payload.length + s.padFor payload :=
    UInt32.toNat_ofNat_of_lt (Nat.lt_of_le_of_lt hmax (by decide))
  have hframe := s.length_frame payload
  have hfour : 4 ≤ (s.frame payload).length := by omega
  exact
    { buf := hbuf
      whole := by rw [(DirectionKeys.sealBuf_length hseal).1, hframe, hlen]
      tagged := by rw [(DirectionKeys.sealBuf_length hseal).2, List.length_replicate, hcipher]
      announced := by
        rw [hcipher, hseq]
        exact DirectionKeys.decryptLength_sealed hseal hfour
      most := by rw [hlen]; exact hmax
      opens := by
        refine ⟨(s.rng.next (s.padFor payload)).val, ?_, ?_⟩
        · rw [hpad, Block.length_val]
        · rw [hcipher, hseq]
          exact DirectionKeys.openBuf_sealed hseal hfour List.length_replicate
      padded := by rw [hpad]; exact hleast.1
      filled := hne }

/-- `try_one_packet` on a whole packet that is not NEWKEYS, past the first
    exchange or without strict kex. -/
theorem tryOnePacket_apply {c : Conn} {len : UInt32} {pad : UInt8} {payload : Bytes}
    {cipher : DirectionKeys} {pkt tag rest : Bytes}
    (h : Arrived c.now len pad payload cipher pkt tag rest) (hnew : ¬IsMsg .newkeys payload)
    (hstrict : (c.now.strictKex && !c.now.firstKexDone) = false) :
    tryOnePacket c
      = (handlePayload payload ⟨c.now.received cipher rest (pkt ++ tag).length,
          c.log ++ [.handled c.now payload]⟩).bind fun _ c' => .ok true c' := by
  obtain ⟨t, r, rfl⟩ := List.exists_cons_of_ne_nil h.filled
  have hfilter : ∀ c1 : Conn,
      strictFilter (c.now.received cipher rest (pkt ++ tag).length) t c1 = .ok () c1 := by
    intro c1
    unfold strictFilter
    rw [if_neg (by
      rw [show (c.now.received cipher rest (pkt ++ tag).length).strictKex = c.now.strictKex from rfl,
        show (c.now.received cipher rest (pkt ++ tag).length).firstKexDone = c.now.firstKexDone
          from rfl, hstrict]
      exact Bool.false_ne_true)]
    rfl
  have hcode : ¬(t = MsgType.newkeys.code
      ∧ (c.now.received cipher rest (pkt ++ tag).length).strictKex = true) := fun hc =>
    hnew (congrArg some hc.1)
  unfold tryOnePacket
  rw [Proc.bind_of_ok (Traced.read_apply c), Proc.bind_of_ok (takePacket_apply h)]
  dsimp only
  rw [Proc.bind_of_ok (Proc.index_of_lt (by simp) _), Proc.bind_of_ok (Traced.read_apply _),
    List.getElem_cons_zero, Proc.bind_of_ok (hfilter _), Proc.ite_apply, if_neg hcode]
  rfl

end Connection

-- ============================================================================
-- The round trip
-- ============================================================================

/-- The receiver `r` expects the key and the sequence number that the sender `s`
    uses next. -/
structure InStep (s r : Connection) : Prop where
  cipher : r.recvCipher = s.sendCipher
  seq : r.recvSeq = s.sendSeq

/-- What one end queues, the other end hands to its handler, whatever bytes
    follow; the packet is padded as little as possible, and afterwards the two
    ends are in step again. -/
theorem framing_roundTrip [CryptoLaws] (s : Conn) (owner : Option UInt32) (payload : Bytes)
    (priority : Bool) (hne : payload ≠ [])
    (hroom : priority = true ∨ s.now.writeBytes < s.now.writeHard)
    (hmax : 1 + payload.length + s.now.padFor payload ≤ Ssproxy.maxPacket)
    (hnew : ¬IsMsg .newkeys payload) :
    ∃ s' wire, queueMsg owner payload priority s = .ok () s' ∧
      s'.now.writeQ = s.now.writeQ ++ [wire] ∧
      wire.length = 4 + (1 + payload.length + s.now.padFor payload) + s.now.sendCipher.kind.tagLen ∧
      (4 ≤ s.now.padFor payload ∧
        s.now.sendCipher.kind.Aligns payload.length (s.now.padFor payload) ∧
        (∀ p, 4 ≤ p → s.now.sendCipher.kind.Aligns payload.length p → s.now.padFor payload ≤ p) ∧
        s.now.padFor payload < 256) ∧
      ∀ (r : Conn) (rest : Bytes), InStep s.now r.now → r.now.readBuf = wire ++ rest →
        (r.now.strictKex && !r.now.firstKexDone) = false →
        tryOnePacket r
          = (handlePayload payload ⟨r.now.received s'.now.sendCipher rest wire.length,
              r.log ++ [.handled r.now payload]⟩).bind (fun _ r' => .ok true r') ∧
        ∀ r', (tryOnePacket r).state? = some r' → r'.now.readBuf = rest ∧ InStep s'.now r'.now := by
  have hshort : payload.length + 512 < CryptoLib.gcmMaxLen := by
    have hlimit := CryptoLib.gcmMaxLen_ge
    rw [Ssproxy.maxPacket] at hmax
    omega
  obtain ⟨s', hq, hs'⟩ := queueMsg_ok owner hne hroom hshort
  cases hs' with
  | @mk cipher pkt tag _ hseal =>
    refine ⟨_, pkt ++ tag, hq, rfl, ?_, paddingLen_least _ _, fun r rest hin hbuf hstrict => ?_⟩
    · rw [List.length_append, (DirectionKeys.sealBuf_length hseal).1,
        (DirectionKeys.sealBuf_length hseal).2, length_frame, List.length_replicate]
    have harrived := arrived_of_sealed hseal hne hmax hin.cipher hin.seq hbuf
    have hrun := tryOnePacket_apply harrived hnew hstrict
    refine ⟨hrun, fun r' hend => ?_⟩
    have hkept : r'.now.inbound
        = (r.now.received cipher rest (pkt ++ tag).length).inbound := by
      rw [hrun] at hend
      exact (inbound_handlePayload hnew).bind (fun _ => keeps_pure true)
        ⟨r.now.received cipher rest (pkt ++ tag).length, r.log ++ [.handled r.now payload]⟩ r' hend
    have hseq : r'.now.recvSeq = r.now.recvSeq + 1 := congrArg Inbound.seq hkept
    refine ⟨congrArg Inbound.buf hkept, congrArg Inbound.cipher hkept, ?_⟩
    rw [hseq, hin.seq]
    rfl

/-- An AES-GCM key whose invocation counter is about to carry. -/
def gcmKeys : DirectionKeys :=
  .aes ⟨.aes128Gcm, .aes128 (.zero 16), ⟨List.replicate 11 0 ++ [255], rfl⟩, rfl⟩

/-- An IGNORE with four bytes of data. -/
def ignoreFour : Bytes := [2, 0, 0, 0, 4, 1, 2, 3, 4]

omit [CryptoLib] in
/-- An IGNORE under AES-GCM, in the middle of a session. -/
theorem framing_roundTrip_gcm : ∃ s' wire,
    @queueMsg Toy.lib none ignoreFour true
        ⟨{ (Setup.server Toy.server).blank Toy.rng with sendCipher := gcmKeys, sendSeq := 7 }, []⟩
      = .ok () s' ∧
    s'.now.writeQ = [wire] ∧ wire.length = 36 ∧
    ∃ r', @tryOnePacket Toy.lib ⟨{ (Setup.client Toy.client).blank Toy.rng with
        recvCipher := gcmKeys, recvSeq := 7, readBuf := wire ++ [7] }, []⟩ = .ok true r' ∧
      payloads r'.log = [ignoreFour] ∧ r'.now.readBuf = [7] ∧ InStep s'.now r'.now := by
  let _ := Toy.lib
  have _ := Toy.laws
  obtain ⟨s', wire, hq, hw, hlen, -, htrip⟩ := framing_roundTrip
    ⟨{ (Setup.server Toy.server).blank Toy.rng with sendCipher := gcmKeys, sendSeq := 7 }, []⟩
    none ignoreFour true (by decide) (.inl rfl) (by decide) (by decide)
  obtain ⟨hrun, hstep⟩ := htrip ⟨{ (Setup.client Toy.client).blank Toy.rng with
    recvCipher := gcmKeys, recvSeq := 7, readBuf := wire ++ [7] }, []⟩ [7] ⟨rfl, rfl⟩ rfl rfl
  refine ⟨s', wire, hq, hw, hlen, _, hrun, rfl, ?_⟩
  exact hstep _ (congrArg Outcome.state? hrun)

end Ssproxy
