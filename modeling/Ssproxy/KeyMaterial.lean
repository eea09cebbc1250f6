/-
  Ssproxy.KeyMaterial

  From the shared secret to the keys: `encode_mpint` writes the secret as the
  canonical mpint of its value, and `derive_block` is the key derivation of
  RFC 4253, section 7.2.
-/

import Ssproxy.Lib.Numeral
import Ssproxy.Machine.Invariant
import Mathlib.Data.List.TakeWhile
import Mathlib.Data.Nat.Bitwise

namespace Ssproxy

open Lib Wire Connection

-- ============================================================================
-- The shared secret as an mpint
-- ============================================================================

/-- `is_zero` tells the all-zero byte strings. -/
theorem isZero_iff (bs : Bytes) : isZero bs = true ↔ ∀ b ∈ bs, b = 0 := by
  have hor : ∀ (bs : Bytes) (acc : UInt8),
      bs.foldl (· ||| ·) acc = 0 ↔ acc = 0 ∧ ∀ b ∈ bs, b = 0 := by
    intro bs
    induction bs with
    | nil => simp
    | cons b bs ih =>
      intro acc
      rw [List.foldl_cons, ih, UInt8.or_eq_zero_iff, List.forall_mem_cons, and_assoc]
  rw [isZero, beq_iff_eq, hor]
  exact and_iff_right rfl

/-- What `encode_mpint` strips leaves a byte other than 0 in front. -/
theorem dropWhile_of_isZero {bs : Bytes} (hz : isZero bs = false) :
    ∃ b rest, bs.dropWhile (· == 0) = b :: rest ∧ b ≠ 0 := by
  obtain ⟨x, hx, hne⟩ : ∃ b ∈ bs, b ≠ 0 := by
    by_contra hall
    push Not at hall
    rw [(isZero_iff bs).mpr hall] at hz
    cases hz
  cases hdrop : bs.dropWhile (· == 0) with
  | nil => exact absurd (by simpa using List.dropWhile_eq_nil_iff.mp hdrop x hx) hne
  | cons b rest =>
    refine ⟨b, rest, rfl, fun hb => ?_⟩
    have hhead := List.head_dropWhile_not (· == 0)
      (show bs.dropWhile (· == 0) ≠ [] by rw [hdrop]; exact List.cons_ne_nil _ _)
    simp only [hdrop, List.head_cons, hb] at hhead
    cases hhead

/-- `bytes[i] & 0x80 != 0`. -/
theorem topBit_iff (b : UInt8) : (b &&& 0x80 != 0) = true ↔ 0x80 ≤ b.toNat := by
  have hlt := b.toNat_lt
  have hand : (b &&& 0x80).toNat = 2 ^ 7 * (b.toNat.testBit 7).toNat := by
    rw [UInt8.toNat_and, Nat.and_comm]
    exact Nat.two_pow_and b.toNat 7
  rw [bne_iff_ne, Ne, ← UInt8.toNat_inj, hand, Nat.testBit_eq_decide_div_mod_eq]
  by_cases hbit : b.toNat / 2 ^ 7 % 2 = 1
  · rw [decide_eq_true hbit]
    simp only [Bool.toNat_true, UInt8.toNat_zero]
    omega
  · rw [decide_eq_false hbit]
    simp only [Bool.toNat_false, UInt8.toNat_zero]
    omega

/-- The data of the mpint: canonical, and of the same value as the input. -/
theorem encodeMpint_data {bs : Bytes} (hz : isZero bs = false) :
    ∃ d : Bytes, encodeMpint bs = putU32 (UInt32.ofNat d.length) ++ d ∧
      d.length ≤ bs.length + 1 ∧ Canonical d ∧ ofBytes d = ofBytes bs := by
  obtain ⟨b, rest, hdrop, hb⟩ := dropWhile_of_isZero hz
  have hval : ofBytes (b :: rest) = ofBytes bs := by rw [← hdrop, ofBytes_dropWhile]
  have hle : (b :: rest).length ≤ bs.length := by
    rw [← hdrop]
    exact (List.dropWhile_sublist _).length_le
  have hpos : 0 < b.toNat := Nat.pos_of_ne_zero fun h => hb (UInt8.toNat_inj.mp h)
  unfold encodeMpint
  rw [hdrop]
  dsimp only
  split
  · next htop =>
    refine ⟨0 :: b :: rest, rfl, Nat.succ_le_succ hle, ⟨by decide, fun _ => ?_⟩, ?_⟩
    · exact (topBit_iff b).mp htop
    · rw [ofBytes_zero_cons, hval]
  · next htop =>
    have hsmall : b.toNat < 0x80 := Nat.lt_of_not_le fun h => htop ((topBit_iff b).mpr h)
    refine ⟨b :: rest, rfl, Nat.le_succ_of_le hle, ?_, hval⟩
    cases rest with
    | nil => exact ⟨hpos, hsmall⟩
    | cons b' rest => exact ⟨hsmall, fun h => absurd h hb⟩

/-- The data only depends on the value. -/
theorem encodeMpint_congr {bs cs : Bytes} (hbs : isZero bs = false) (hcs : isZero cs = false)
    (h : ofBytes bs = ofBytes cs) : encodeMpint bs = encodeMpint cs := by
  obtain ⟨b, bs', hb, hb0⟩ := dropWhile_of_isZero hbs
  obtain ⟨c, cs', hc, hc0⟩ := dropWhile_of_isZero hcs
  have heq : b :: bs' = c :: cs' := by
    refine eq_of_ofBytes_eq hb0 hc0 ?_
    rw [← hb, ← hc, ofBytes_dropWhile, ofBytes_dropWhile, h]
  unfold encodeMpint
  rw [hb, hc, heq]

/-- The length field says how many bytes follow. -/
theorem ofBytes_putU32 {n : Nat} (h : n < 2 ^ 32) : ofBytes (putU32 (UInt32.ofNat n)) = n := by
  have hn : (UInt32.ofNat n).toNat = n := UInt32.toNat_ofNat_of_lt' h
  simp only [putU32, beBytes, hn, ofBytes, List.foldl_cons, List.foldl_nil,
    UInt8.toNat_ofNat']
  omega

/-- `encode_mpint` of a secret that the key exchange accepts: a length field
    and the shortest two's complement bytes of the secret's value, so that two
    secrets have one encoding exactly when they have one value. -/
theorem encodeMpint_canonical {bytes : Bytes} (hz : isZero bytes = false)
    (hlen : bytes.length < 2 ^ 32 - 1) :
    (∃ d : Bytes, encodeMpint bytes = putU32 (UInt32.ofNat d.length) ++ d ∧
      ofBytes (putU32 (UInt32.ofNat d.length)) = d.length ∧
      0 < ofTwosComplement d ∧ ofTwosComplement d = ofBytes bytes ∧ Canonical d ∧
      ∀ d', ofTwosComplement d' = ofTwosComplement d → d.length ≤ d'.length) ∧
    ∀ other : Bytes, isZero other = false → other.length < 2 ^ 32 - 1 →
      (encodeMpint bytes = encodeMpint other ↔ ofBytes bytes = ofBytes other) := by
  obtain ⟨d, henc, hdlen, hcan, hval⟩ := encodeMpint_data hz
  refine ⟨⟨d, henc, ofBytes_putU32 (by omega), hcan.pos, ?_, hcan, fun _ => hcan.length_le⟩, ?_⟩
  · rw [hcan.eq_ofBytes, hval]
  · intro other hzo _
    refine ⟨fun heq => ?_, encodeMpint_congr hz hzo⟩
    obtain ⟨d', henc', -, -, hval'⟩ := encodeMpint_data hzo
    rw [henc, henc'] at heq
    have hdata : d = d' := (List.append_inj heq (by simp)).2
    rw [← hval, ← hval', hdata]

/-- A secret with a leading zero and one with its top bit set. -/
theorem encodeMpint_canonical_topBit :
    (∃ d : Bytes, encodeMpint [0, 0x80, 1] = putU32 (UInt32.ofNat d.length) ++ d ∧
      ofTwosComplement d = 0x8001) ∧
    (encodeMpint [0, 0x80, 1] = encodeMpint [0x80, 1]) := by
  obtain ⟨⟨d, henc, -, -, hval, -⟩, heq⟩ :=
    @encodeMpint_canonical [0, 0x80, 1] (by decide) (by decide)
  exact ⟨⟨d, henc, hval⟩, (heq [0x80, 1] (by decide) (by decide)).mpr (by decide)⟩

-- ============================================================================
-- The keys of RFC 4253, section 7.2
-- ============================================================================

variable [CryptoLib]

/-- `K1`, `K2`, …: `K1 = HASH(K || H || letter || session_id)` and
    `K(i+1) = HASH(K || H || K1 || … || Ki)`. -/
def keyBlocks (k h sessionId : Bytes) (letter : UInt8) : Nat → List (Block 32)
  | 0 => []
  | 1 => [CryptoLib.sha256 (k ++ h ++ [letter] ++ sessionId)]
  | i + 2 =>
      let blocks := keyBlocks k h sessionId letter (i + 1)
      blocks ++ [CryptoLib.sha256 (k ++ h ++ (blocks.map (·.val)).flatten)]

/-- `K1 || … || Km`. -/
def keyStream (k h sessionId : Bytes) (letter : UInt8) (m : Nat) : Bytes :=
  ((keyBlocks k h sessionId letter m).map (·.val)).flatten

section

variable (k h sessionId : Bytes) (letter : UInt8)

theorem keyStream_succ (m : Nat) :
    keyStream k h sessionId letter (m + 2) = keyStream k h sessionId letter (m + 1) ++
      (CryptoLib.sha256 (k ++ h ++ keyStream k h sessionId letter (m + 1))).val := by
  rw [keyStream, keyBlocks]
  simp only [List.map_append, List.flatten_append, List.map_cons, List.map_nil,
    List.flatten_cons, List.flatten_nil, List.append_nil]
  rfl

theorem length_keyStream (m : Nat) : (keyStream k h sessionId letter m).length = 32 * m := by
  induction m with
  | zero => rfl
  | succ m ih =>
    cases m with
    | zero => simp [keyStream, keyBlocks]
    | succ m =>
      rw [keyStream_succ, List.length_append, ih, Block.length_val]
      omega

theorem keyStream_prefix {m m' : Nat} (hle : m ≤ m') :
    keyStream k h sessionId letter m <+: keyStream k h sessionId letter m' := by
  induction m', hle using Nat.le_induction with
  | base => exact List.prefix_rfl
  | succ m' _ ih =>
    refine ih.trans ?_
    cases m' with
    | zero => exact List.nil_prefix
    | succ m' =>
      rw [keyStream_succ]
      exact List.prefix_append _ _

/-- Each round of the loop adds the next block; it stops when there are enough
    bytes or no rounds are left. -/
theorem extendKey_keyStream (n fuel m : Nat) :
    ∃ r ≤ fuel, extendKey k h n fuel (keyStream k h sessionId letter (m + 1))
        = keyStream k h sessionId letter (m + 1 + r) ∧
      (r < fuel → n ≤ 32 * (m + 1 + r)) := by
  induction fuel generalizing m with
  | zero => exact ⟨0, Nat.le_refl 0, rfl, fun h => absurd h (Nat.not_lt_zero 0)⟩
  | succ fuel ih =>
    rw [extendKey, length_keyStream]
    split
    · rw [← keyStream_succ]
      obtain ⟨r, hr, heq, hn⟩ := ih (m + 1)
      rw [show m + 1 + 1 + r = m + 1 + (r + 1) by omega] at heq hn
      exact ⟨r + 1, Nat.succ_le_succ hr, heq, fun h => hn (Nat.lt_of_succ_lt_succ h)⟩
    · next henough =>
      exact ⟨0, Nat.zero_le _, rfl, fun _ => Nat.le_of_not_lt henough⟩

/-- The loop of `derive_block` ends after at most `n` rounds, with enough
    blocks for `n` bytes. -/
theorem extendKey_ends (n : Nat) {fuel : Nat} (hfuel : n ≤ fuel) :
    ∃ m, n ≤ 32 * m ∧ extendKey k h n fuel
        (CryptoLib.sha256 (k ++ h ++ [letter] ++ sessionId)).val
      = keyStream k h sessionId letter m := by
  have hone : (CryptoLib.sha256 (k ++ h ++ [letter] ++ sessionId)).val
      = keyStream k h sessionId letter 1 := by
    simp [keyStream, keyBlocks]
  obtain ⟨r, hr, heq, hn⟩ := extendKey_keyStream k h sessionId letter n fuel 0
  refine ⟨0 + 1 + r, ?_, by rw [hone, heq]⟩
  rcases Nat.lt_or_eq_of_le hr with hlt | rfl
  · exact hn hlt
  · omega

/-- The first `n` bytes do not depend on how many blocks there are. -/
theorem take_keyStream {n m m' : Nat} (hm : n ≤ 32 * m) (hm' : n ≤ 32 * m') :
    (keyStream k h sessionId letter m).take n = (keyStream k h sessionId letter m').take n := by
  rw [← length_keyStream k h sessionId letter] at hm hm'
  rcases Nat.le_total m m' with hle | hle
  · obtain ⟨t, ht⟩ := keyStream_prefix k h sessionId letter hle
    rw [← ht, List.take_append_of_le_length hm]
  · obtain ⟨t, ht⟩ := keyStream_prefix k h sessionId letter hle
    rw [← ht, List.take_append_of_le_length hm']

/-- `derive_block` writes the first `n` bytes of `K1 || K2 || …`. -/
theorem deriveBlock_keyStream {n m : Nat} (hm : n ≤ 32 * m) {σ : Type} (s : σ) :
    deriveBlock k h sessionId letter n s
      = .ok ((keyStream k h sessionId letter m).take n) s := by
  obtain ⟨m', hm', heq⟩ := extendKey_ends k h sessionId letter n (Nat.le_refl n)
  unfold deriveBlock
  rw [heq, Proc.slice_of_le (Nat.zero_le n) (by rw [length_keyStream]; exact hm'),
    List.drop_zero, Nat.sub_zero, take_keyStream k h sessionId letter hm' hm]

/-- Rounds after the last one change nothing. -/
theorem extendKey_fuel (n : Nat) {fuel : Nat} {key : Bytes} (hfuel : n ≤ key.length + fuel) :
    extendKey k h n (fuel + 1) key = extendKey k h n fuel key := by
  induction fuel generalizing key with
  | zero =>
    exact if_neg (Nat.not_lt.mpr hfuel)
  | succ fuel ih =>
    rw [extendKey, extendKey.eq_2 k h n key fuel]
    split
    · refine ih ?_
      rw [List.length_append, Block.length_val]
      omega
    · rfl

/-- `derive_block` is the key derivation of RFC 4253, section 7.2: its loop
    ends within `n` rounds with at least `n` bytes, the output is the first `n`
    bytes of `K1 || K2 || …`, and a shorter output is a prefix of a longer one. -/
theorem deriveBlock_rfc4253 (n : Nat) :
    (∀ fuel, n ≤ fuel →
      let key := (CryptoLib.sha256 (k ++ h ++ [letter] ++ sessionId)).val
      n ≤ (extendKey k h n fuel key).length ∧
        extendKey k h n fuel key = extendKey k h n n key) ∧
    (∀ m, n ≤ 32 * m → ∀ {σ : Type} (s : σ), deriveBlock k h sessionId letter n s
      = .ok ((keyStream k h sessionId letter m).take n) s) ∧
    ∀ n', n ≤ n' → ∃ out out' : Bytes, out.length = n ∧ out <+: out' ∧
      ∀ {σ : Type} (s : σ), deriveBlock k h sessionId letter n s = .ok out s ∧
        deriveBlock k h sessionId letter n' s = .ok out' s := by
  refine ⟨fun fuel hfuel => ⟨?_, ?_⟩,
    fun m hm => deriveBlock_keyStream k h sessionId letter hm, fun n' hle => ?_⟩
  · exact le_length_extendKey k h n fuel _ (Nat.le_add_left_of_le hfuel)
  · induction fuel, hfuel using Nat.le_induction with
    | base => rfl
    | succ fuel hfuel ih =>
      rw [extendKey_fuel k h n (Nat.le_add_left_of_le hfuel)]
      exact ih
  · have hn' : n' ≤ 32 * n' := by omega
    refine ⟨_, _, ?_, ?_, fun s => ⟨deriveBlock_keyStream k h sessionId letter (hle.trans hn') s,
      deriveBlock_keyStream k h sessionId letter hn' s⟩⟩
    · rw [List.length_take, length_keyStream]
      omega
    · exact List.take_prefix_take_left hle

end

end Ssproxy
