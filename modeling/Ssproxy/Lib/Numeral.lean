/-
  Ssproxy.Lib.Numeral

  Byte strings as numbers: the unsigned big-endian value, the two's complement
  value, and the shortest byte strings among those of one value.
-/

import Ssproxy.Lib.Bytes
import Mathlib.Data.List.Induction
import Mathlib.Tactic.Common

namespace Ssproxy.Lib

-- ============================================================================
-- Unsigned numbers
-- ============================================================================

/-- A number from its bytes, the first one the most significant. -/
def ofBytes (bs : Bytes) : Nat := bs.foldl (fun n b => 256 * n + b.toNat) 0

theorem ofBytes_concat (bs : Bytes) (b : UInt8) :
    ofBytes (bs ++ [b]) = 256 * ofBytes bs + b.toNat := by
  simp [ofBytes]

theorem ofBytes_lt (bs : Bytes) : ofBytes bs < 256 ^ bs.length := by
  induction bs using List.reverseRecOn with
  | nil => exact Nat.one_pos
  | append_singleton bs b ih =>
    have hb := b.toNat_lt
    rw [ofBytes_concat, List.length_append, List.length_singleton, Nat.pow_succ]
    omega

theorem ofBytes_cons (b : UInt8) (bs : Bytes) :
    ofBytes (b :: bs) = b.toNat * 256 ^ bs.length + ofBytes bs := by
  induction bs using List.reverseRecOn with
  | nil => simp [ofBytes]
  | append_singleton bs x ih =>
    rw [← List.cons_append, ofBytes_concat, ofBytes_concat, ih, List.length_append,
      List.length_singleton, Nat.pow_succ]
    rw [show b.toNat * (256 ^ bs.length * 256) = 256 * (b.toNat * 256 ^ bs.length) by
      rw [← Nat.mul_assoc, Nat.mul_comm]]
    omega

/-- Byte strings of one length are told apart by their values. -/
theorem ofBytes_injective {bs cs : Bytes} (hlen : bs.length = cs.length)
    (h : ofBytes bs = ofBytes cs) : bs = cs := by
  induction bs generalizing cs with
  | nil => exact (List.length_eq_zero_iff.mp hlen.symm).symm
  | cons b bs ih =>
    obtain ⟨c, cs, rfl⟩ := List.exists_cons_of_length_eq_add_one hlen.symm
    have hlen' : bs.length = cs.length := Nat.succ.inj hlen
    have hb := ofBytes_lt bs
    have hc := ofBytes_lt cs
    rw [ofBytes_cons, ofBytes_cons, hlen'] at h
    rw [hlen'] at hb
    have hhead : b.toNat = c.toNat := by
      have hdiv := congrArg (· / 256 ^ cs.length) h
      simpa only [Nat.mul_comm _ (256 ^ cs.length), Nat.mul_add_div (Nat.pos_of_neZero _),
        Nat.div_eq_of_lt hb, Nat.div_eq_of_lt hc, Nat.add_zero] using hdiv
    rw [hhead] at h
    rw [UInt8.toNat_inj.mp hhead, ih hlen' (Nat.add_left_cancel h)]

/-- A byte string that starts with a byte other than 0 uses all its bytes. -/
theorem le_ofBytes_cons {b : UInt8} (hb : b ≠ 0) (bs : Bytes) :
    256 ^ bs.length ≤ ofBytes (b :: bs) := by
  have hpos : 0 < b.toNat := by
    rcases Nat.eq_zero_or_pos b.toNat with hzero | hpos
    · exact absurd (UInt8.toNat_inj.mp hzero) hb
    · exact hpos
  rw [ofBytes_cons]
  exact Nat.le_add_right_of_le (Nat.le_mul_of_pos_left _ hpos)

/-- Leading zeros do not count. -/
theorem ofBytes_dropWhile (bs : Bytes) : ofBytes (bs.dropWhile (· == 0)) = ofBytes bs := by
  induction bs with
  | nil => rfl
  | cons b bs ih =>
    by_cases hb : b = 0
    · rw [List.dropWhile_cons_of_pos (by simp [hb]), ih, ofBytes_cons, hb]
      simp
    · rw [List.dropWhile_cons_of_neg (by simpa using hb)]

theorem ofBytes_zero_cons (bs : Bytes) : ofBytes (0 :: bs) = ofBytes bs := by
  rw [ofBytes_cons]
  simp

/-- Without leading zeros a value has one byte string only. -/
theorem eq_of_ofBytes_eq {b c : UInt8} {bs cs : Bytes} (hb : b ≠ 0) (hc : c ≠ 0)
    (h : ofBytes (b :: bs) = ofBytes (c :: cs)) : b :: bs = c :: cs := by
  have hbge := le_ofBytes_cons hb bs
  have hcge := le_ofBytes_cons hc cs
  have hblt := ofBytes_lt (b :: bs)
  have hclt := ofBytes_lt (c :: cs)
  rw [h] at hbge hblt
  have hle := (Nat.pow_lt_pow_iff_right (by decide : 1 < 256)).mp (Nat.lt_of_le_of_lt hbge hclt)
  have hge := (Nat.pow_lt_pow_iff_right (by decide : 1 < 256)).mp (Nat.lt_of_le_of_lt hcge hblt)
  rw [List.length_cons] at hle hge
  exact ofBytes_injective (by rw [List.length_cons, List.length_cons]; omega) h

-- ============================================================================
-- Two's complement
-- ============================================================================

/-- A signed number from its bytes: the top bit of the first one is the sign. -/
def ofTwosComplement (bs : Bytes) : Int :=
  if (bs.headD 0).toNat < 0x80 then ofBytes bs else ofBytes bs - (256 ^ bs.length : Nat)

/-- The first byte has no sign bit, and is 0 only to keep the next one's top
    bit from being the sign. -/
def Canonical : Bytes → Prop
  | [] => False
  | [b] => 0 < b.toNat ∧ b.toNat < 0x80
  | b :: b' :: _ => b.toNat < 0x80 ∧ (b = 0 → 0x80 ≤ b'.toNat)

theorem Canonical.eq_ofBytes {d : Bytes} (h : Canonical d) : ofTwosComplement d = ofBytes d := by
  match d, h with
  | [_], h => exact if_pos h.2
  | _ :: _ :: _, h => exact if_pos h.1

/-- What a byte string of a given length can say at most. -/
theorem ofTwosComplement_lt (d : Bytes) : 2 * ofTwosComplement d < (256 ^ d.length : Nat) := by
  have hlt := ofBytes_lt d
  unfold ofTwosComplement
  split
  · next hsign =>
    cases d with
    | nil => decide
    | cons b bs =>
      have hbs := ofBytes_lt bs
      have hb : b.toNat < 0x80 := hsign
      have hle : (b.toNat + 1) * 256 ^ bs.length ≤ 128 * 256 ^ bs.length :=
        Nat.mul_le_mul_right _ hb
      rw [ofBytes_cons, List.length_cons, Nat.pow_succ]
      rw [Nat.add_mul, Nat.one_mul] at hle
      omega
  · omega

/-- A canonical byte string needs its last byte: one byte less could not say
    so much. -/
theorem Canonical.le_ofBytes {d : Bytes} (h : Canonical d) :
    256 ^ d.length ≤ 2 * 256 * ofBytes d := by
  match d, h with
  | [b], h =>
    have hb : ofBytes [b] = b.toNat := by simp [ofBytes]
    rw [hb]
    have := h.1
    simp only [List.length_singleton, Nat.pow_one]
    omega
  | b :: b' :: bs, h =>
    rw [List.length_cons, Nat.pow_succ]
    by_cases hzero : b = 0
    · have hb' := h.2 hzero
      have hle : 128 * 256 ^ bs.length ≤ b'.toNat * 256 ^ bs.length :=
        Nat.mul_le_mul_right _ hb'
      rw [hzero, ofBytes_zero_cons, ofBytes_cons, List.length_cons, Nat.pow_succ]
      omega
    · have hge := le_ofBytes_cons hzero (b' :: bs)
      omega

theorem Canonical.pos {d : Bytes} (h : Canonical d) : 0 < ofTwosComplement d := by
  have hle := h.le_ofBytes
  have hpow : 0 < 256 ^ d.length := Nat.pow_pos (by omega)
  rw [h.eq_ofBytes]
  omega

/-- Canonical byte strings are the shortest ones of their value. -/
theorem Canonical.length_le {d d' : Bytes} (h : Canonical d)
    (hval : ofTwosComplement d' = ofTwosComplement d) : d.length ≤ d'.length := by
  have hle := h.le_ofBytes
  have hlt := ofTwosComplement_lt d'
  rw [hval, h.eq_ofBytes] at hlt
  have hpow : 256 ^ d.length < 256 ^ (d'.length + 1) := by
    rw [Nat.pow_succ]
    omega
  have := (Nat.pow_lt_pow_iff_right (by decide : 1 < 256)).mp hpow
  omega

end Ssproxy.Lib
