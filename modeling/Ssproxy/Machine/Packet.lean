/-
  Ssproxy.Machine.Packet

  The packet layer against its closed forms: `queue_msg` frames and seals one
  message (`Queues`) or draws random bytes only, and `try_one_packet` takes
  one packet off `read_buf` (`received`) or leaves a fault.  Neither panics:
  every slice is inside its buffer.
-/

import Ssproxy.Machine.Moves

namespace Ssproxy

open Lib Wire Connection

variable [CryptoLib]

-- ============================================================================
-- Ciphers keep kinds and lengths
-- ============================================================================

theorem DirectionKeys.sealBuf_kind {keys keys' : DirectionKeys} {seq : UInt32}
    {buf tagOut pkt tag : Bytes} (h : keys.sealBuf seq buf tagOut = .ok (keys', pkt, tag)) :
    keys'.kind = keys.kind := by
  cases keys with
  | clear =>
    simp only [sealBuf, Except.ok.injEq, Prod.mk.injEq] at h
    rw [← h.1]
  | chaCha k =>
    simp only [sealBuf] at h
    cases hs : k.sealBuf seq buf tagOut with
    | error e => rw [hs] at h; cases h
    | ok r => rw [hs] at h; cases h; rfl
  | aes a =>
    simp only [sealBuf] at h
    cases hs : a.sealBuf buf tagOut with
    | error e => rw [hs] at h; cases h
    | ok r =>
      rw [hs] at h
      cases h
      simp only [AesGcmSsh.sealBuf] at hs
      split at hs
      · cases hs
      · split at hs
        · cases hs
        · cases hs; rfl

theorem DirectionKeys.openBuf_kind {keys keys' : DirectionKeys} {seq : UInt32}
    {buf tag body : Bytes} (h : keys.openBuf seq buf tag = .ok (keys', body)) :
    keys'.kind = keys.kind := by
  cases keys with
  | clear =>
    simp only [openBuf] at h
    split at h
    · cases h
    · cases h; rfl
  | chaCha k =>
    simp only [openBuf] at h
    cases hs : k.openBuf seq buf tag with
    | error e => rw [hs] at h; cases h
    | ok r => rw [hs] at h; cases h; rfl
  | aes a =>
    simp only [openBuf] at h
    cases hs : a.openBuf buf tag with
    | error e => rw [hs] at h; cases h
    | ok r =>
      rw [hs] at h
      cases h
      simp only [AesGcmSsh.openBuf] at hs
      split at hs
      · cases hs
      · split at hs
        · cases hs
        · split at hs
          · cases hs
          · cases hs; rfl

theorem ChaCha20Poly1305Ssh.length_applyKeystream (key : Block 32) (seq : UInt32) (start : Nat)
    (data : Bytes) : (applyKeystream key seq start data).length = data.length := by
  simp [applyKeystream]

theorem DirectionKeys.length_decryptLength (keys : DirectionKeys) (seq : UInt32) (enc : Bytes) :
    (keys.decryptLength seq enc).length = enc.length := by
  cases keys with
  | clear => rfl
  | chaCha k => exact ChaCha20Poly1305Ssh.length_applyKeystream _ _ _ _
  | aes a => rfl

theorem DirectionKeys.openBuf_length {keys keys' : DirectionKeys} {seq : UInt32}
    {buf tag body : Bytes} (h : keys.openBuf seq buf tag = .ok (keys', body)) :
    body.length = buf.length := by
  have hsplit : (buf.take 4).length + (buf.drop 4).length = buf.length := by
    rw [← List.length_append, List.take_append_drop]
  cases keys with
  | clear =>
    simp only [openBuf] at h
    split at h
    · cases h
    · cases h; rfl
  | chaCha k =>
    simp only [openBuf, ChaCha20Poly1305Ssh.openBuf] at h
    split at h
    · cases h
    · split at h
      · cases h
      · cases h
        rw [List.length_append, ChaCha20Poly1305Ssh.decryptLength,
          ChaCha20Poly1305Ssh.applyPayload, ChaCha20Poly1305Ssh.length_applyKeystream,
          ChaCha20Poly1305Ssh.length_applyKeystream, hsplit]
  | aes a =>
    simp only [openBuf, AesGcmSsh.openBuf] at h
    split at h
    · cases h
    · split at h
      · cases h
      · split at h
        · cases h
        · rename_i b _
          cases h
          rw [List.length_append, b.property, hsplit]

/-- Sealing changes no length. -/
theorem DirectionKeys.sealBuf_length {keys keys' : DirectionKeys} {seq : UInt32}
    {buf tagOut pkt tag : Bytes} (h : keys.sealBuf seq buf tagOut = .ok (keys', pkt, tag)) :
    pkt.length = buf.length ∧ tag.length = tagOut.length := by
  have hsplit : (buf.take 4).length + (buf.drop 4).length = buf.length := by
    rw [← List.length_append, List.take_append_drop]
  cases keys with
  | clear =>
    cases h
    exact ⟨rfl, rfl⟩
  | chaCha k =>
    simp only [sealBuf, ChaCha20Poly1305Ssh.sealBuf] at h
    split at h
    · cases h
    · rename_i hguard
      cases h
      refine ⟨?_, ?_⟩
      · rw [List.length_append, ChaCha20Poly1305Ssh.decryptLength,
          ChaCha20Poly1305Ssh.applyPayload, ChaCha20Poly1305Ssh.length_applyKeystream,
          ChaCha20Poly1305Ssh.length_applyKeystream, hsplit]
      · rw [List.length_append, Block.length_val, List.length_drop]
        simp only [tagLen] at hguard ⊢
        omega
  | aes a =>
    simp only [sealBuf, AesGcmSsh.sealBuf] at h
    split at h
    · cases h
    · rename_i hguard
      split at h
      · cases h
      · cases h
        refine ⟨?_, ?_⟩
        · rw [List.length_append, Block.length_val, hsplit]
        · rw [List.length_append, Block.length_val, List.length_drop]
          omega

/-- Sealing fails only beyond the limit of AES-GCM. -/
theorem DirectionKeys.sealBuf_ok (keys : DirectionKeys) (seq : UInt32) {buf tagOut : Bytes}
    (hbuf : 4 ≤ buf.length) (htag : tagOut.length = keys.kind.tagLen)
    (hlen : buf.length ≤ CryptoLib.gcmMaxLen) :
    ∃ keys' pkt tag, keys.sealBuf seq buf tagOut = .ok (keys', pkt, tag) := by
  cases keys with
  | clear => exact ⟨_, _, _, rfl⟩
  | chaCha k =>
    have hguard : ¬ (buf.length < 4 ∨ tagOut.length < tagLen) := by
      simp only [kind, CipherKind.tagLen] at htag
      omega
    simp only [sealBuf, ChaCha20Poly1305Ssh.sealBuf, if_neg hguard]
    exact ⟨_, _, _, rfl⟩
  | aes a =>
    have htag' : tagOut.length = 16 := by
      simp only [kind, a.kind_eq] at htag
      cases hi : a.inner with
      | aes128 k => rw [hi] at htag; exact htag
      | aes256 k => rw [hi] at htag; exact htag
    have hguard : ¬ (buf.length < 4 ∨ tagOut.length < 16) := by omega
    have hmax : ¬ (buf.drop 4).length > CryptoLib.gcmMaxLen := by
      rw [List.length_drop]
      omega
    simp only [sealBuf, AesGcmSsh.sealBuf, if_neg hguard, if_neg hmax]
    exact ⟨_, _, _, rfl⟩

-- ============================================================================
-- Messages that are too long
-- ============================================================================

/-- The cipher is AES-GCM, and the packet with `payload` is beyond its limit. -/
def Connection.TooLong (c : Connection) (payload : Bytes) : Prop :=
  (c.sendCipher.kind = .aes128Gcm ∨ c.sendCipher.kind = .aes256Gcm) ∧
    CryptoLib.gcmMaxLen < 1 + payload.length + c.padFor payload

/-- Only the length of the message counts. -/
theorem Connection.tooLong_congr {x x' : Connection} {p p' : Bytes}
    (hkind : x.sendCipher.kind = x'.sendCipher.kind) (hlen : p.length = p'.length) :
    x.TooLong p ↔ x'.TooLong p' := by
  unfold TooLong padFor
  rw [hkind, hlen]

/-- Sealing fails just beyond the limit of AES-GCM. -/
theorem DirectionKeys.sealBuf_refuses (keys : DirectionKeys) (seq : UInt32)
    (buf tagOut : Bytes) (hbuf : 4 ≤ buf.length) (htag : tagOut.length = keys.kind.tagLen) :
    (∃ e, keys.sealBuf seq buf tagOut = .error e) ↔
      (keys.kind = .aes128Gcm ∨ keys.kind = .aes256Gcm) ∧ CryptoLib.gcmMaxLen < buf.length - 4 := by
  cases keys with
  | clear =>
    constructor
    · rintro ⟨e, he⟩
      cases he
    · rintro ⟨h | h, -⟩ <;> cases h
  | chaCha k =>
    have hguard : ¬(buf.length < 4 ∨ tagOut.length < tagLen) := by
      simp only [kind, CipherKind.tagLen] at htag
      omega
    constructor
    · rintro ⟨e, he⟩
      simp only [sealBuf, ChaCha20Poly1305Ssh.sealBuf, if_neg hguard] at he
      cases he
    · rintro ⟨h | h, -⟩ <;> cases h
  | aes a =>
    have hkind : a.kind = .aes128Gcm ∨ a.kind = .aes256Gcm := by
      rw [a.kind_eq]
      cases a.inner with
      | aes128 k => exact .inl rfl
      | aes256 k => exact .inr rfl
    have htag' : tagOut.length = 16 := by
      simp only [kind] at htag
      rcases hkind with h | h <;> rw [h] at htag <;> exact htag
    have hguard : ¬(buf.length < 4 ∨ tagOut.length < 16) := by omega
    simp only [sealBuf, AesGcmSsh.sealBuf, if_neg hguard, List.length_drop]
    by_cases hmax : buf.length - 4 > CryptoLib.gcmMaxLen
    · rw [if_pos hmax]
      exact ⟨fun _ => ⟨hkind, hmax⟩, fun _ => ⟨_, rfl⟩⟩
    · rw [if_neg hmax]
      constructor
      · rintro ⟨e, he⟩
        cases he
      · exact fun h => absurd h.2 hmax

-- ============================================================================
-- queue_msg
-- ============================================================================

namespace Connection

omit [CryptoLib] in
theorem length_frame (c : Connection) (payload : Bytes) :
    (c.frame payload).length = 4 + (1 + payload.length + c.padFor payload) := by
  simp only [frame, List.length_append, List.length_cons, length_beBytes,
    (c.rng.next (c.padFor payload)).property]
  omega

/-- Sealing a message fails just when it is too long. -/
theorem seal_refuses (c : Connection) (payload : Bytes) :
    (∃ e, c.sendCipher.sealBuf c.sendSeq (c.frame payload)
      (List.replicate c.sendCipher.kind.tagLen 0) = .error e) ↔ c.TooLong payload := by
  have hlen := c.length_frame payload
  have hrefuses := DirectionKeys.sealBuf_refuses c.sendCipher c.sendSeq (c.frame payload)
    (List.replicate c.sendCipher.kind.tagLen 0) (by omega) List.length_replicate
  rw [hlen, Nat.add_sub_cancel_left] at hrefuses
  exact hrefuses

omit [CryptoLib] in
/-- `fill_bytes` returns the next bytes of the source. -/
@[simp] theorem fillBytes_apply (n : Nat) (c : Conn) :
    fillBytes n c = .ok (c.now.rng.next n) ⟨{ c.now with rng := c.now.rng.skip n }, c.log⟩ := rfl

/-- `queue_msg` on a payload it does not refuse: what is left is the sealing. -/
theorem queueMsg_apply {owner : Option UInt32} {payload : Bytes} {priority : Bool} {c : Conn}
    (hne : payload ≠ []) (hroom : priority = true ∨ c.now.writeBytes < c.now.writeHard) :
    queueMsg owner payload priority c
      = match c.now.sendCipher.sealBuf c.now.sendSeq (c.now.frame payload)
          (List.replicate c.now.sendCipher.kind.tagLen 0) with
        | .error e => .err e ⟨{ c.now with rng := c.now.rng.skip (c.now.padFor payload) }, c.log⟩
        | .ok (cipher, pkt, tag) => .ok () ⟨c.now.sealed payload cipher (pkt ++ tag),
            c.log ++ [.queued c.now owner payload (pkt ++ tag)]⟩ := by
  have hback : ¬ (priority = false ∧ c.now.writeBytes ≥ c.now.writeHard) := by
    rintro ⟨hp, hw⟩
    rcases hroom with h | h
    · rw [hp] at h; cases h
    · omega
  generalize hL : beBytes (UInt32.ofNat (1 + payload.length + c.now.padFor payload)) = L
  generalize hP : [UInt8.ofNat (c.now.padFor payload)] = P
  have hLlen : L.length = 4 := by rw [← hL]; rfl
  have hPlen : P.length = 1 := by rw [← hP]; rfl
  have hframe : c.now.frame payload
      = L ++ P ++ payload ++ (c.now.rng.next (c.now.padFor payload)).val := by
    simp [frame, ← hL, ← hP]
  -- the zeroed buffer, cut where the four writes go
  let tagRoom := List.replicate c.now.sendCipher.kind.tagLen (0 : UInt8)
  let padRoom := List.replicate (c.now.padFor payload) (0 : UInt8)
  let bodyRoom := List.replicate payload.length (0 : UInt8)
  have hzero : List.replicate (4 + (1 + payload.length + c.now.padFor payload)
        + c.now.sendCipher.kind.tagLen) (0 : UInt8)
      = [] ++ List.replicate 4 0 ++ ([0] ++ (bodyRoom ++ (padRoom ++ tagRoom))) := by
    have h1 : [(0 : UInt8)] = List.replicate 1 0 := rfl
    simp only [bodyRoom, padRoom, tagRoom, h1, List.nil_append, List.replicate_append_replicate]
    congr 1
    omega
  have h1 : ∀ s : Conn, (Proc.copyInto (List.replicate (4 + (1 + payload.length
      + c.now.padFor payload) + c.now.sendCipher.kind.tagLen) (0 : UInt8)) 0 L :
      Proc Conn Error Bytes) s = .ok (L ++ ([0] ++ (bodyRoom ++ (padRoom ++ tagRoom)))) s := by
    intro s
    rw [hzero]
    exact Proc.copyInto_middle (by rw [hLlen]; rfl) s
  have h2 : ∀ s : Conn, (Proc.copyInto (L ++ ([0] ++ (bodyRoom ++ (padRoom ++ tagRoom)))) 4 P :
      Proc Conn Error Bytes) s = .ok (L ++ P ++ (bodyRoom ++ (padRoom ++ tagRoom))) s := by
    intro s
    rw [← List.append_assoc, ← hLlen]
    exact Proc.copyInto_middle (by rw [hPlen]; rfl) s
  have h3 : ∀ s : Conn, (Proc.copyInto (L ++ P ++ (bodyRoom ++ (padRoom ++ tagRoom))) 5 payload :
      Proc Conn Error Bytes) s = .ok (L ++ P ++ payload ++ (padRoom ++ tagRoom)) s := by
    intro s
    have h5 : 5 = (L ++ P).length := by rw [List.length_append, hLlen, hPlen]
    rw [← List.append_assoc (L ++ P), h5]
    exact Proc.copyInto_middle List.length_replicate s
  have h4 : ∀ s : Conn, (Proc.copyInto (L ++ P ++ payload ++ (padRoom ++ tagRoom))
      (5 + payload.length) (c.now.rng.next (paddingLen payload.length
        c.now.sendCipher.kind.blockSize c.now.sendCipher.kind.isAead)).val :
      Proc Conn Error Bytes) s = .ok (c.now.frame payload ++ tagRoom) s := by
    intro s
    have h5 : 5 + payload.length = (L ++ P ++ payload).length := by
      rw [List.length_append, List.length_append, hLlen, hPlen]
    rw [← List.append_assoc (L ++ P ++ payload), h5, hframe]
    refine Proc.copyInto_middle ?_ s
    rw [(c.now.rng.next _).property]
    exact List.length_replicate
  have h5 : ∀ s : Conn, (Proc.splitAt (c.now.frame payload ++ tagRoom)
      (4 + (1 + payload.length + c.now.padFor payload)) : Proc Conn Error (Bytes × Bytes)) s
      = .ok (c.now.frame payload, tagRoom) s := by
    intro s
    rw [← length_frame]
    exact Proc.splitAt_left _ _ s
  have hpad : paddingLen payload.length c.now.sendCipher.kind.blockSize
      c.now.sendCipher.kind.isAead = c.now.padFor payload := rfl
  unfold queueMsg
  simp only [Proc.bind_apply, Traced.read_apply, Outcome.bind_ok, Proc.failIf_apply, if_neg hne,
    if_neg hback, hpad, hL, hP, h1, h2, h3, fillBytes_apply, h4, h5]
  cases c.now.sendCipher.sealBuf c.now.sendSeq (c.now.frame payload) tagRoom with
  | error e => rfl
  | ok r => rfl

/-- `queue_msg` queues the message, or fails having drawn random bytes only. -/
theorem queueMsg_sat (owner : Option UInt32) (payload : Bytes) (priority : Bool) (c : Conn) :
    (queueMsg owner payload priority c).Sat (fun _ c' => Queues owner payload c c')
      (fun _ c' => Draws c c') := by
  by_cases hne : payload = []
  · have hq : queueMsg owner payload priority c = .err (.protocol "empty msg") c := by
      simp [queueMsg, hne]
    rw [hq]
    exact Draws.mk c.now.rng
  · by_cases hback : priority = false ∧ c.now.writeBytes ≥ c.now.writeHard
    · have hq : queueMsg owner payload priority c = .err (.protocol "write backlog") c := by
        simp [queueMsg, hne, hback]
      rw [hq]
      exact Draws.mk c.now.rng
    · have hroom : priority = true ∨ c.now.writeBytes < c.now.writeHard := by
        by_cases hp : priority = true
        · exact .inl hp
        · exact .inr (Nat.lt_of_not_le fun h => hback ⟨eq_false_of_ne_true hp, h⟩)
      rw [queueMsg_apply hne hroom]
      cases hs : c.now.sendCipher.sealBuf c.now.sendSeq (c.now.frame payload)
          (List.replicate c.now.sendCipher.kind.tagLen 0) with
      | error e => exact Draws.mk _
      | ok r => exact Queues.mk hne hs

omit [CryptoLib] in
/-- A packet is at most this much longer than its payload. -/
theorem padFor_le (c : Connection) (payload : Bytes) : c.padFor payload ≤ 19 := by
  have hb : c.sendCipher.kind.blockSize = 8 ∨ c.sendCipher.kind.blockSize = 16 := by
    cases c.sendCipher.kind <;> simp [CipherKind.blockSize]
  simp only [padFor, paddingLen]
  rcases hb with hb | hb <;> rw [hb] <;> split <;> split <;> omega

/-- `queue_msg` does not fail on a payload within the limits. -/
theorem queueMsg_ok (owner : Option UInt32) {payload : Bytes} {priority : Bool} {c : Conn}
    (hne : payload ≠ []) (hroom : priority = true ∨ c.now.writeBytes < c.now.writeHard)
    (hlen : payload.length + 512 < CryptoLib.gcmMaxLen) :
    ∃ c', queueMsg owner payload priority c = .ok () c' ∧ Queues owner payload c c' := by
  have hpad := c.now.padFor_le payload
  have hfl := c.now.length_frame payload
  have hmax : (c.now.frame payload).length ≤ CryptoLib.gcmMaxLen := by omega
  obtain ⟨cipher, pkt, tag, hs⟩ := DirectionKeys.sealBuf_ok c.now.sendCipher c.now.sendSeq
    (by omega) List.length_replicate hmax
  refine ⟨_, ?_, Queues.mk hne hs⟩
  rw [queueMsg_apply hne hroom, hs]

/-- A short message with priority is never refused. -/
theorem queueMsg_short (owner : Option UInt32) (payload : Bytes) (c : Conn) (hne : payload ≠ [])
    (hlen : payload.length ≤ 2 ^ 20) :
    (queueMsg owner payload true c).Sat (fun _ c' => Queues owner payload c c')
      (fun _ _ => False) := by
  obtain ⟨c', hq, hc'⟩ := queueMsg_ok owner (c := c) hne (.inl (rfl : true = true))
    (by have hlimit := CryptoLib.gcmMaxLen_ge; omega)
  rw [hq]
  exact hc'

/-- A message sent with priority. -/
theorem queueMsg_sends (owner : Option UInt32) (payload : Bytes) (c : Conn) (hne : payload ≠ []) :
    (queueMsg owner payload true c).Sat (fun _ c' => Queues owner payload c c')
      (fun _ c' => CryptoLib.gcmMaxLen ≤ payload.length + 512 ∧ Draws c c') := by
  by_cases hlen : payload.length + 512 < CryptoLib.gcmMaxLen
  · obtain ⟨c', hq, hc'⟩ := queueMsg_ok owner (c := c) hne (.inl rfl) hlen
    rw [hq]
    exact hc'
  · exact (queueMsg_sat owner payload true c).mono (fun _ _ h => h)
      fun _ _ h => ⟨Nat.le_of_not_lt hlen, h⟩

/-- A queued packet adds to the backlog. -/
theorem queued_lt_of_queues {owner : Option UInt32} {payload : Bytes} {c c' : Conn}
    (h : Queues owner payload c c') : c.now.queuedWriteBytes < c'.now.queuedWriteBytes := by
  cases h with
  | mk hne hseal =>
    have hlen := (DirectionKeys.sealBuf_length hseal).1
    rw [length_frame] at hlen
    simp only [queuedWriteBytes, sealed, List.length_append]
    omega

-- ============================================================================
-- try_one_packet, up to the handler
-- ============================================================================

/-- A packet of `total` bytes with this payload was at the front of `read_buf`. -/
structure Opens (c : Connection) (payload : Bytes) (cipher : DirectionKeys) (rest : Bytes)
    (total : Nat) : Prop where
  nonempty : payload ≠ []
  short : payload.length ≤ Ssproxy.maxPacket
  kind : cipher.kind = c.recvCipher.kind
  size : c.readBuf.length = total + rest.length
  min : 8 ≤ total

/-- The packet at the front of `read_buf` is not complete. -/
def Lacks (k : Connection) : Prop :=
  k.readBuf.length < 4 ∨ ∃ len : UInt32,
    (∀ {σ : Type} (s : σ), beU32 (k.recvCipher.decryptLength k.recvSeq (k.readBuf.take 4)) s
      = .ok len s) ∧
    ¬(len < 4 ∨ len.toNat > Ssproxy.maxPacket) ∧
    k.readBuf.length < 4 + len.toNat + k.recvCipher.kind.tagLen

omit [CryptoLib] in
theorem tagLen_le (kind : CipherKind) : kind.tagLen ≤ 16 := by
  cases kind <;> decide

theorem Lacks.short {k : Connection} (h : k.Lacks) :
    k.readBuf.length < 4 + Ssproxy.maxPacket + 16 := by
  rcases h with h | ⟨len, -, hrange, hlt⟩
  · omega
  · have hmax := Nat.le_of_not_lt (mt Or.inr hrange)
    have htag := tagLen_le k.recvCipher.kind
    omega

omit [CryptoLib] in
theorem beU32_of_length {b : Bytes} (h : b.length = 4) :
    ∃ len : UInt32, ∀ {σ : Type} (s : σ), (beU32 b : Proc σ Error UInt32) s = .ok len s := by
  match b, h with
  | [b0, b1, b2, b3], _ => exact ⟨ofBe b0 b1 b2 b3, fun _ => rfl⟩

/-- What `try_one_packet` does before it looks at the payload. -/
theorem takePacket_sat (c : Conn) :
    (takePacket c).Sat
      (fun r c1 => (r = none ∧ c1 = c ∧ c.now.Lacks) ∨ ∃ payload cipher rest total, r = some payload ∧
        Opens c.now payload cipher rest total ∧ c1 = ⟨c.now.received cipher rest total, c.log⟩)
      (fun _ c1 => c1 = c ∨ Faults c c1) := by
  unfold takePacket
  simp only [Proc.bind_apply, Traced.read_apply, Outcome.bind_ok, Proc.ite_apply]
  split
  · rename_i hfour
    exact .inl ⟨rfl, rfl, .inl hfour⟩
  rename_i hfour
  have hfour : 4 ≤ c.now.readBuf.length := Nat.le_of_not_lt hfour
  rw [Proc.slice_of_le (Nat.zero_le 4) hfour]
  simp only [Outcome.bind_ok, Nat.sub_zero, List.drop_zero]
  generalize hpl : c.now.recvCipher.decryptLength c.now.recvSeq (c.now.readBuf.take 4) = plainLen
  have hplain : plainLen.length = 4 := by
    rw [← hpl, DirectionKeys.length_decryptLength, List.length_take, Nat.min_eq_left hfour]
  obtain ⟨len, hlen⟩ := beU32_of_length hplain
  rw [Proc.bind_of_ok (hlen c)]
  simp only [Proc.bind_apply, Proc.failIf_apply]
  split
  · exact .inl rfl
  rename_i hrange
  have hlow : 4 ≤ len.toNat := by
    have h := mt Or.inl hrange
    exact Nat.le_of_not_lt fun hlt => h hlt
  have hhigh : len.toNat ≤ Ssproxy.maxPacket := Nat.le_of_not_lt (mt Or.inr hrange)
  simp only [Outcome.bind_ok, Proc.ite_apply]
  split
  · rename_i hshort
    refine .inl ⟨rfl, rfl, .inr ⟨len, ?_, hrange, hshort⟩⟩
    rw [hpl]
    exact hlen
  rename_i hshort
  have htotal := Nat.le_of_not_lt hshort
  generalize htl : c.now.recvCipher.kind.tagLen = tagLen at htotal
  rw [Proc.bind_of_ok (Proc.splitAt_of_le htotal c)]
  simp only [Proc.bind_apply, Outcome.bind_ok, Traced.update_apply]
  have hpkt : (c.now.readBuf.take (4 + len.toNat + tagLen)).length = 4 + len.toNat + tagLen := by
    rw [List.length_take, Nat.min_eq_left htotal]
  generalize c.now.readBuf.take (4 + len.toNat + tagLen) = pkt at hpkt
  rw [Proc.splitAt_of_le (by omega : 4 + len.toNat ≤ pkt.length)]
  simp only [Outcome.bind_ok]
  cases hopen : c.now.recvCipher.openBuf c.now.recvSeq (pkt.take (4 + len.toNat))
      (pkt.drop (4 + len.toNat)) with
  | error e => exact .inr (Faults.drop (rfl : c.now.recvCipher.kind = _))
  | ok r =>
    obtain ⟨cipher, body⟩ := r
    have hkind := DirectionKeys.openBuf_kind hopen
    have hbody : body.length = 4 + len.toNat := by
      rw [DirectionKeys.openBuf_length hopen, List.length_take, hpkt]
      omega
    rw [Proc.bind_of_ok (Proc.ofExcept_ok _ _)]
    simp only [Proc.bind_apply, Outcome.bind_ok, Traced.update_apply]
    rw [Proc.copyInto_of_le (by omega : 0 + plainLen.length ≤ body.length)]
    simp only [Outcome.bind_ok]
    generalize hbuf : body.take 0 ++ plainLen ++ body.drop (0 + plainLen.length)
        ++ pkt.drop (4 + len.toNat) = buf
    have hbuflen : buf.length = 4 + len.toNat + tagLen := by
      rw [← hbuf]
      simp only [List.length_append, List.length_take, List.length_drop, hpkt, hplain, hbody]
      omega
    rw [Proc.bind_of_ok (Proc.index_of_lt (by omega : 4 < buf.length) _)]
    simp only [Proc.bind_apply, Proc.failIf_apply]
    generalize buf[4] = pad
    split
    · exact .inr (Faults.drop hkind)
    simp only [Outcome.bind_ok, Proc.bind_apply, Proc.failIf_apply]
    split
    · exact .inr (Faults.drop hkind)
    rename_i hpadlen
    have hpad : pad.toNat + 2 ≤ len.toNat := by omega
    simp only [Outcome.bind_ok]
    rw [Proc.bind_of_ok (Proc.checkedSub_of_le (by omega : pad.toNat ≤ 4 + len.toNat) _),
      Proc.bind_of_ok (Proc.splitAt_of_le (by omega : 5 ≤ buf.length) _),
      Proc.bind_of_ok (Proc.checkedSub_of_le (by omega : 5 ≤ 4 + len.toNat - pad.toNat) _)]
    simp only [Proc.bind_apply, Proc.failIf_apply]
    split
    · exact .inr (Faults.drop hkind)
    rename_i hne
    refine .inr ⟨_, cipher, _, _, rfl, ⟨hne, ?_, hkind, ?_, ?_⟩, rfl⟩
    · refine Nat.le_trans (List.length_take_le _ _) ?_
      omega
    · simp only [List.length_drop]
      omega
    · omega

end Connection

end Ssproxy
