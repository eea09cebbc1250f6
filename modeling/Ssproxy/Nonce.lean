/-
  Ssproxy.Nonce

  Under which nonces the packets are sealed.  From one installation of a send
  key to the next, `send_seq` and the IV go up by one with every packet, and
  nothing else changes them.
-/

import Ssproxy.Lib.Epoch
import Ssproxy.Lib.Numeral
import Ssproxy.Machine.Sender
import Ssproxy.Inflow

namespace Ssproxy

open Lib Wire Connection Relation

-- ============================================================================
-- The counter of the IV
-- ============================================================================

/-- The last eight bytes of an IV as a number. -/
def ivCounter (iv : Block 12) : Nat := ofBytes (iv.val.drop 4)

/-- One position of `inc_iv`: no carry, or a carry. -/
theorem toNat_succ (b : UInt8) :
    (b + 1 ≠ 0 ∧ (b + 1).toNat = b.toNat + 1) ∨ (b + 1 = 0 ∧ b.toNat = 255) := by
  have hlt := b.toNat_lt
  have hsum : (b + 1).toNat = (b.toNat + 1) % 256 := by
    rw [UInt8.toNat_add]
    rfl
  by_cases hmax : b.toNat = 255
  · refine .inr ⟨?_, hmax⟩
    apply UInt8.toNat_inj.mp
    rw [hsum, hmax]
    rfl
  · have hnat : (b + 1).toNat = b.toNat + 1 := by
      rw [hsum]
      omega
    refine .inl ⟨fun hzero => ?_, hnat⟩
    rw [hzero] at hnat
    simp at hnat

/-- The loop of `inc_iv` over a range of positions adds one to the number that
    stands there, modulo its size. -/
theorem incAt_range (digits : Bytes) (pre post : Bytes) (iv : Block 12)
    (h : iv.val = pre ++ digits ++ post) : ∃ digits' : Bytes,
    (AesGcmSsh.incAt (List.range' pre.length digits.length).reverse iv).val
      = pre ++ digits' ++ post ∧
    digits'.length = digits.length ∧
    ofBytes digits' = (ofBytes digits + 1) % 256 ^ digits.length := by
  induction digits using List.reverseRecOn generalizing post iv with
  | nil => exact ⟨[], h, rfl, by simp [ofBytes]⟩
  | append_singleton digits d ih =>
    have hlen : (digits ++ [d]).length = digits.length + 1 := by simp
    have hat : (pre ++ digits).length = pre.length + digits.length := List.length_append
    have hiv : iv.val = (pre ++ digits) ++ d :: post := by
      rw [h]
      simp
    have hget : iv.val.getD (pre.length + digits.length) 0 = d := by
      rw [hiv, ← hat]
      simp
    have hset : ∀ b, iv.val.set (pre.length + digits.length) b = (pre ++ digits) ++ b :: post := by
      intro b
      rw [hiv, ← hat]
      simp
    rw [hlen, List.range'_concat, List.reverse_append, List.reverse_singleton,
      List.singleton_append, Nat.one_mul]
    unfold AesGcmSsh.incAt
    dsimp only
    have hbound := ofBytes_lt digits
    have hd := d.toNat_lt
    rcases toNat_succ d with ⟨hne, hnat⟩ | ⟨hzero, hmax⟩
    · rw [if_pos (by rw [hget]; exact hne)]
      refine ⟨digits ++ [d + 1], ?_, by simp, ?_⟩
      · dsimp only
        rw [hget, hset]
        simp
      · have hlt := ofBytes_lt (digits ++ [d + 1])
        rw [show (digits ++ [d + 1]).length = digits.length + 1 by simp] at hlt
        rw [ofBytes_concat, hnat] at hlt ⊢
        rw [ofBytes_concat, Nat.mod_eq_of_lt (by omega)]
        omega
    · rw [if_neg (by rw [hget, hzero]; exact fun hne => hne rfl)]
      obtain ⟨digits', hval, hlen', hnum⟩ := ih ((d + 1) :: post)
        ⟨iv.val.set (pre.length + digits.length) (iv.val.getD (pre.length + digits.length) 0 + 1),
          AesGcmSsh.length_set _ _⟩ (by dsimp only; rw [hget, hset])
      refine ⟨digits' ++ [0], ?_, by simp [hlen'], ?_⟩
      · rw [hval, hzero]
        simp
      · rw [ofBytes_concat, ofBytes_concat, hnum, hmax, Nat.pow_succ']
        rw [show 256 * ofBytes digits + 255 + 1 = 256 * (ofBytes digits + 1) by omega,
          Nat.mul_mod_mul_left]
        rfl

/-- `inc_iv` adds one to the last eight bytes and leaves the first four. -/
theorem incIv_counter (a : AesGcmSsh) :
    ivCounter a.incIv.iv = (ivCounter a.iv + 1) % 2 ^ 64 ∧
      a.incIv.iv.val.take 4 = a.iv.val.take 4 := by
  have hpre : (a.iv.val.take 4).length = 4 := by simp [a.iv.property]
  have hdigits : (a.iv.val.drop 4).length = 8 := by simp [a.iv.property]
  obtain ⟨digits', hval, -, hnum⟩ := incAt_range (a.iv.val.drop 4) (a.iv.val.take 4) [] a.iv
    (by simp)
  rw [hpre, hdigits, List.append_nil] at hval
  have hinc : a.incIv.iv.val = a.iv.val.take 4 ++ digits' := hval
  rw [hdigits] at hnum
  refine ⟨?_, ?_⟩
  · rw [ivCounter, hinc, List.drop_left' hpre, hnum]
    rfl
  · rw [hinc, List.take_left' hpre]

/-- After `k` packets. -/
theorem ivCounter_iterate (k : Nat) (a : AesGcmSsh) :
    ivCounter (AesGcmSsh.incIv^[k] a).iv = (ivCounter a.iv + k) % 2 ^ 64 := by
  induction k with
  | zero =>
    have hlt := ofBytes_lt (a.iv.val.drop 4)
    have hdigits : (a.iv.val.drop 4).length = 8 := by simp [a.iv.property]
    rw [hdigits] at hlt
    exact (Nat.mod_eq_of_lt hlt).symm
  | succ k ih =>
    rw [Function.iterate_succ_apply', (incIv_counter _).1, ih]
    omega

-- ============================================================================
-- The nonce of a packet
-- ============================================================================

namespace DirectionKeys

/-- The nonce for the next packet. -/
def nonce (keys : DirectionKeys) (seq : UInt32) : Option (Block 12) :=
  match keys with
  | clear => none
  | chaCha _ => some (ChaCha20Poly1305Ssh.nonce seq)
  | aes a => some a.iv

/-- The keys after a packet. -/
def advanced : DirectionKeys → DirectionKeys
  | aes a => aes a.incIv
  | keys => keys

/-- After how many packets a nonce may come back. -/
def period : DirectionKeys → Nat
  | clear => 0
  | chaCha _ => 2 ^ 32
  | aes _ => 2 ^ 64

end DirectionKeys

/-- Keys and sequence number after a packet. -/
def tick (s : DirectionKeys × UInt32) : DirectionKeys × UInt32 := (s.1.advanced, s.2 + 1)

theorem tick_iterate_seq (k : Nat) (s : DirectionKeys × UInt32) :
    (tick^[k] s).2 = s.2 + UInt32.ofNat k := by
  induction k with
  | zero => simp
  | succ k ih =>
    rw [Function.iterate_succ_apply', tick, ih]
    apply UInt32.toNat_inj.mp
    simp only [UInt32.toNat_add, UInt32.toNat_ofNat', UInt32.toNat_one]
    omega

theorem tick_iterate_chaCha (k : Nat) (key : ChaCha20Poly1305Ssh) (seq : UInt32) :
    (tick^[k] (.chaCha key, seq)).1 = .chaCha key := by
  induction k with
  | zero => rfl
  | succ k ih =>
    rw [Function.iterate_succ_apply', tick, ih]
    rfl

theorem tick_iterate_aes (k : Nat) (a : AesGcmSsh) (seq : UInt32) :
    (tick^[k] (.aes a, seq)).1 = .aes (AesGcmSsh.incIv^[k] a) := by
  induction k with
  | zero => rfl
  | succ k ih =>
    rw [Function.iterate_succ_apply', Function.iterate_succ_apply', tick, ih]
    rfl

theorem nonce_injective {seq seq' : UInt32}
    (h : ChaCha20Poly1305Ssh.nonce seq' = ChaCha20Poly1305Ssh.nonce seq) : seq' = seq := by
  have hbytes : beBytes seq' = beBytes seq :=
    (List.append_right_inj (List.replicate 8 0)).mp (congrArg Subtype.val h)
  exact beBytes_injective hbytes

/-- A nonce comes back only after whole periods. -/
theorem nonce_period {s : DirectionKeys × UInt32} (hseal : s.1 ≠ .clear) {k : Nat}
    (h : (tick^[k] s).1.nonce (tick^[k] s).2 = s.1.nonce s.2) : s.1.period ∣ k := by
  obtain ⟨keys, seq⟩ := s
  cases keys with
  | clear => exact absurd rfl hseal
  | chaCha key =>
    rw [tick_iterate_chaCha, tick_iterate_seq] at h
    have hseq := nonce_injective (Option.some.inj h)
    have hnat := congrArg UInt32.toNat hseq
    have hlt := seq.toNat_lt
    rw [UInt32.toNat_add, UInt32.toNat_ofNat'] at hnat
    show 2 ^ 32 ∣ k
    dsimp only at hnat
    omega
  | aes a =>
    rw [tick_iterate_aes] at h
    have hiv : (AesGcmSsh.incIv^[k] a).iv = a.iv := Option.some.inj h
    have hnum := ivCounter_iterate k a
    have hlt := ofBytes_lt (a.iv.val.drop 4)
    have hdigits : (a.iv.val.drop 4).length = 8 := by simp [a.iv.property]
    rw [hdigits] at hlt
    rw [hiv] at hnum
    show 2 ^ 64 ∣ k
    unfold ivCounter at hnum
    omega

-- ============================================================================
-- Moves of the send side
-- ============================================================================

/-- The number of the send key in place, the key and the sequence number. -/
def Connection.sendLine (c : Connection) : Nat × (DirectionKeys × UInt32) :=
  (c.sendInstalls, c.sendCipher, c.sendSeq)

/-- The state in which a packet was sealed. -/
def Obs.sealing : Obs → Option Connection
  | queued b _ _ _ => some b
  | _ => none

/-- The states in which the packets were sealed, in order. -/
def sealings (log : List Obs) : List Connection := log.filterMap Obs.sealing

def sendLines (log : List Obs) : List (Nat × (DirectionKeys × UInt32)) :=
  (sealings log).map Connection.sendLine

theorem sendLines_append (l l' : List Obs) :
    sendLines (l ++ l') = sendLines l ++ sendLines l' := by
  simp [sendLines, sealings]

/-- From `c` to `c'` the send side advanced by one with every packet, or a new
    key was put in place. -/
structure Seals (c c' : Conn) : Prop where
  metered : Metered tick (sendLines c.log) c.now.sendLine →
    Metered tick (sendLines c'.log) c'.now.sendLine
  installs : c.now.sendInstalls ≤ c'.now.sendInstalls
  counted : ∃ new, sendLines c'.log = sendLines c.log ++ new ∧
    (c'.now.sendInstalls = c.now.sendInstalls →
      c'.now.sendLine.2 = tick^[new.length] c.now.sendLine.2)

variable {c c' c1 : Conn} {p payload : Bytes} {owner : Option UInt32} {new : List Obs}

namespace Seals

theorem refl (c : Conn) : Seals c c := ⟨id, Nat.le_refl _, [], by simp, fun _ => rfl⟩

theorem trans (h : Seals c c1) (h' : Seals c1 c') : Seals c c' := by
  obtain ⟨new, hl, hcount⟩ := h.counted
  obtain ⟨new', hl', hcount'⟩ := h'.counted
  have hle := h.installs
  have hle' := h'.installs
  refine ⟨h'.metered ∘ h.metered, by omega, new ++ new', ?_, fun hsame => ?_⟩
  · rw [hl', hl, List.append_assoc]
  · rw [hcount' (by omega), hcount (by omega), ← Function.iterate_add_apply, List.length_append,
      Nat.add_comm]

/-- The send side was not touched. -/
theorem of_eq (hline : c'.now.sendLine = c.now.sendLine) (hlog : c'.log = c.log ++ new)
    (hnew : ∀ o ∈ new, o.sealing = none) : Seals c c' := by
  have hlines : sendLines c'.log = sendLines c.log := by
    have hnil : sendLines new = [] := by
      rw [sendLines, sealings, List.filterMap_eq_nil_iff.mpr hnew, List.map_nil]
    rw [hlog, sendLines_append, hnil, List.append_nil]
  refine ⟨fun h => ?_, ?_, [], by rw [hlines, List.append_nil], fun _ => ?_⟩
  · rw [hline, hlines]
    exact h
  · exact Nat.le_of_eq (congrArg (·.1) hline).symm
  · rw [hline]
    rfl

theorem still (hline : c'.now.sendLine = c.now.sendLine) (hlog : c'.log = c.log) : Seals c c' :=
  of_eq hline (by rw [hlog, List.append_nil]) (List.forall_mem_nil _)

end Seals

variable [CryptoLib]

theorem DirectionKeys.sealBuf_advanced {keys keys' : DirectionKeys} {seq : UInt32}
    {buf tagOut pkt tag : Bytes} (h : keys.sealBuf seq buf tagOut = .ok (keys', pkt, tag)) :
    keys' = keys.advanced := by
  cases keys with
  | clear =>
    simp only [sealBuf, Except.ok.injEq, Prod.mk.injEq] at h
    rw [← h.1]
    rfl
  | chaCha k =>
    simp only [sealBuf] at h
    cases hs : k.sealBuf seq buf tagOut with
    | error e =>
      rw [hs] at h
      cases h
    | ok r =>
      rw [hs] at h
      cases h
      rfl
  | aes a =>
    simp only [sealBuf] at h
    cases hs : a.sealBuf buf tagOut with
    | error e =>
      rw [hs] at h
      cases h
    | ok r =>
      rw [hs] at h
      cases h
      simp only [AesGcmSsh.sealBuf] at hs
      split at hs
      · cases hs
      · split at hs
        · cases hs
        · cases hs
          rfl

theorem Queues.seals (h : Queues owner payload c c') : Seals c c' := by
  cases h with
  | @mk cipher pkt tag hne hseal =>
    have hkeys := DirectionKeys.sealBuf_advanced hseal
    have hline : (c.now.sealed payload cipher (pkt ++ tag)).sendLine
        = (c.now.sendLine.1, tick c.now.sendLine.2) := by
      rw [hkeys]
      rfl
    have hlines : ∀ w, sendLines (c.log ++ [.queued c.now owner payload w])
        = sendLines c.log ++ [c.now.sendLine] := fun w => sendLines_append _ _
    refine ⟨fun hm => ?_, Nat.le_refl _, [c.now.sendLine], hlines _, fun _ => ?_⟩
    · rw [hline, hlines]
      exact hm.use
    · rw [hline]
      rfl

omit [CryptoLib] in
/-- A send key is put in place; with strict key exchange `send_seq` is reset. -/
theorem seals_installSend (c : Conn) (pk : PendingKeys) : Seals c ⟨c.now.installSend pk, c.log⟩ := by
  have hlater : c.now.sendInstalls < (c.now.installSend pk).sendInstalls := Nat.lt_succ_self _
  refine ⟨fun h => h.renew hlater, Nat.le_of_lt hlater, [], (List.append_nil _).symm,
    fun hsame => ?_⟩
  exact absurd hsame (Nat.ne_of_gt hlater)

variable {D : Bytes → Prop}

/-- An elementary move of the sending side. -/
theorem Outgo.seals (h : Outgo D c c') : Seals c c' := by
  cases h with
  | rest hs hlog hnew =>
    refine .of_eq (congrArg (fun s => (s.installs, (s.cipher, s.seq))) hs) hlog fun o ho => ?_
    cases o with
    | queued b owner payload wire => cases hnew _ ho
    | _ => rfl
  | queue hq hdata => exact hq.seals
  | install pk => exact seals_installSend c pk
  | pull =>
    obtain ⟨_, _, _, _, h⟩ := c.now.pullCurrentOut_eq
    rw [h]
    exact .still rfl rfl

theorem Outgoes.seals (h : Outgoes D c c') : Seals c c' :=
  h.induct Seals.refl (fun _ _ _ => Seals.trans) fun _ _ => Outgo.seals

theorem Move.seals (h : Move c c') : Seals c c' := by
  rcases h.outgoes (carries_true _) with h | ⟨b, m, hb, rfl⟩
  · exact h.seals
  · obtain ⟨_, _, _, _, _, h⟩ := c.now.pullDrained_eq b (min m b.length)
    rw [h]
    exact .still rfl rfl

theorem Moves.seals (h : Moves c c') : Seals c c' := by
  induction h with
  | refl => exact .refl c
  | tail _ hlast ih => exact ih.trans hlast.seals

-- ============================================================================
-- Whole runs
-- ============================================================================

/-- In every run, whatever the peer and the application do, two packets sealed
    under one installation of a send key with one nonce are a whole period
    apart.  Between two installations `send_seq` counts the packets, so it is
    not reset; and `inc_iv` counts up in the last eight bytes of the IV. -/
theorem Setup.Reaches.nonces_spaced {setup : Setup} (h : setup.Reaches c) :
    (∀ i j (b b' : Connection) n, i < j → (sealings c.log)[i]? = some b → (sealings c.log)[j]? = some b' →
      b.sendInstalls = b'.sendInstalls → b.sendCipher.nonce b.sendSeq = some n →
      b'.sendCipher.nonce b'.sendSeq = some n → b.sendCipher.period ≤ j - i) ∧
    (∀ c', Moves c c' → c'.now.sendInstalls = c.now.sendInstalls →
      (sealings c.log).length ≤ (sealings c'.log).length ∧ c'.now.sendSeq = c.now.sendSeq
        + UInt32.ofNat ((sealings c'.log).length - (sealings c.log).length)) ∧
    ∀ a : AesGcmSsh, ivCounter a.incIv.iv = (ivCounter a.iv + 1) % 2 ^ 64 ∧
      a.incIv.iv.val.take 4 = a.iv.val.take 4 := by
  refine ⟨?_, ?_, incIv_counter⟩
  · intro i j b b' n hij hi hj hsame hn hn'
    obtain ⟨rng, c0, hstart, hmoves⟩ := h
    have hmetered : Metered tick (sendLines c.log) c.now.sendLine :=
      ((Outgoes.seals (D := fun _ => True) hstart.outgoes).trans (Moves.seals hmoves)).metered (.nil _ _)
    have hline : ∀ {i : Nat} {b : Connection}, (sealings c.log)[i]? = some b →
        (sendLines c.log)[i]? = some b.sendLine := by
      intro i b hi
      rw [sendLines, List.getElem?_map, hi]
      rfl
    refine hmetered.spaced (f := fun s => s.1.nonce s.2) ?_ hij (hline hi) (hline hj) hsame
      (hn'.trans hn.symm)
    intro k hk
    refine nonce_period (s := b.sendLine.2) (fun hclear => ?_) hk
    have hnone : b.sendCipher = .clear := hclear
    rw [hnone] at hn
    cases hn
  · intro c' hmoves hsame
    obtain ⟨new, hl, hcount⟩ := (Moves.seals hmoves).counted
    have hlen : (sealings c'.log).length = (sealings c.log).length + new.length := by
      have hlen := congrArg List.length hl
      simpa [sendLines] using hlen
    refine ⟨by omega, ?_⟩
    have hseq : c'.now.sendLine.2.2 = (tick^[new.length] c.now.sendLine.2).2 :=
      congrArg (·.2) (hcount hsame)
    rw [tick_iterate_seq] at hseq
    rw [hlen, Nat.add_sub_cancel_left]
    exact hseq

/-- Two packets after the first key exchange. -/
def Setup.confirmAndSend : List Call :=
  [.recv (Setup.channelPeer 1000), .processIn, .confirmOpen 0, .sendData 0 [97]]

omit [CryptoLib] in
theorem Setup.Reaches.nonces_spaced_confirmAndSend : ∃ (c : Conn) (b b' : Connection),
    @Setup.run Toy.lib (.server Toy.server) Toy.rng confirmAndSend = .ok () c ∧
      (sealings c.log)[3]? = some b ∧ (sealings c.log)[4]? = some b' ∧
      b.sendInstalls = b'.sendInstalls ∧
      b.sendCipher.nonce b.sendSeq ≠ b'.sendCipher.nonce b'.sendSeq := by
  have hpass : (@Setup.run Toy.lib (.server Toy.server) Toy.rng confirmAndSend).passes (fun c =>
      (sealings c.log)[3]?.any fun (b : Connection) => (sealings c.log)[4]?.any
        fun (b' : Connection) => decide (b.sendInstalls = b'.sendInstalls) &&
          (b.sendCipher.nonce b.sendSeq).isSome && decide (1 < b.sendCipher.period)) = true := by
    decide +kernel
  obtain ⟨_, c, hrun, hc⟩ := Outcome.exists_of_passes hpass
  rw [Option.any_eq_true] at hc
  obtain ⟨b, hb, hc⟩ := hc
  rw [Option.any_eq_true] at hc
  obtain ⟨b', hb', hc⟩ := hc
  rw [Bool.and_eq_true, Bool.and_eq_true, decide_eq_true_iff, decide_eq_true_iff] at hc
  obtain ⟨⟨hsame, hsome⟩, hperiod⟩ := hc
  obtain ⟨n, hn⟩ := Option.isSome_iff_exists.mp hsome
  refine ⟨c, b, b', hrun, hb, hb', hsame, fun hnonce => ?_⟩
  have hle := (@Setup.Reaches.nonces_spaced c Toy.lib _
    (@Reaches.of_run Toy.lib _ _ _ c hrun)).1 3 4 b b' n (by decide) hb hb' hsame hn
    (hnonce.symm.trans hn)
  omega

end Ssproxy
