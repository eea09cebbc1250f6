/-
  Ssproxy.Lib.Bytes

  Byte strings as lists, byte blocks of a fixed length, the big-endian layout
  of 32-bit integers, and the UTF-8 bytes of a string.
-/

import Mathlib.Algebra.GroupWithZero.Nat
import Mathlib.Data.UInt

namespace Ssproxy.Lib

abbrev Bytes := List UInt8

/-- A byte string of length `n` (`[u8; n]`). -/
abbrev Block (n : Nat) := { b : Bytes // b.length = n }

namespace Block

@[simp] theorem length_val {n : Nat} (b : Block n) : b.val.length = n := b.property

/-- A block of zero bytes. -/
def zero (n : Nat) : Block n := ⟨List.replicate n 0, List.length_replicate⟩

/-- `try_into()` from a slice to an array. -/
def ofBytes? (n : Nat) (b : Bytes) : Option (Block n) :=
  if h : b.length = n then some ⟨b, h⟩ else none

theorem ofBytes?_of_length {n : Nat} {b : Bytes} (h : b.length = n) :
    ofBytes? n b = some ⟨b, h⟩ := by
  simp [ofBytes?, h]

end Block

-- ============================================================================
-- Big-endian integers
-- ============================================================================

/-- `u32::to_be_bytes`. -/
def beBytes (x : UInt32) : Bytes :=
  [UInt8.ofNat (x.toNat / 2 ^ 24), UInt8.ofNat (x.toNat / 2 ^ 16),
   UInt8.ofNat (x.toNat / 2 ^ 8), UInt8.ofNat x.toNat]

/-- `u32::from_be_bytes`. -/
def ofBe (a b c d : UInt8) : UInt32 :=
  UInt32.ofNat (a.toNat * 2 ^ 24 + b.toNat * 2 ^ 16 + c.toNat * 2 ^ 8 + d.toNat)

@[simp] theorem length_beBytes (x : UInt32) : (beBytes x).length = 4 := rfl

theorem toNat_ofBe (a b c d : UInt8) :
    (ofBe a b c d).toNat
      = a.toNat * 2 ^ 24 + b.toNat * 2 ^ 16 + c.toNat * 2 ^ 8 + d.toNat := by
  have ha := a.toNat_lt
  have hb := b.toNat_lt
  have hc := c.toNat_lt
  have hd := d.toNat_lt
  rw [ofBe, UInt32.toNat_ofNat', Nat.mod_eq_of_lt (by omega)]

/-- Decoding the big-endian bytes gives the integer back. -/
theorem ofBe_beBytes (x : UInt32) :
    ofBe (UInt8.ofNat (x.toNat / 2 ^ 24)) (UInt8.ofNat (x.toNat / 2 ^ 16))
      (UInt8.ofNat (x.toNat / 2 ^ 8)) (UInt8.ofNat x.toNat) = x := by
  apply UInt32.toNat_inj.mp
  have hx := x.toNat_lt
  rw [toNat_ofBe]
  simp only [UInt8.toNat_ofNat']
  omega

/-- Every four bytes are the big-endian bytes of the integer they decode to. -/
theorem beBytes_ofBe (a b c d : UInt8) : beBytes (ofBe a b c d) = [a, b, c, d] := by
  have ha := a.toNat_lt
  have hb := b.toNat_lt
  have hc := c.toNat_lt
  have hd := d.toNat_lt
  have h8 : ∀ (n : Nat) (y : UInt8), n % 256 = y.toNat → UInt8.ofNat n = y := by
    intro n y h
    apply UInt8.toNat_inj.mp
    rw [UInt8.toNat_ofNat']
    exact h
  simp only [beBytes, toNat_ofBe, List.cons.injEq, and_true]
  refine ⟨h8 _ _ ?_, h8 _ _ ?_, h8 _ _ ?_, h8 _ _ ?_⟩ <;> omega

theorem beBytes_injective {x y : UInt32} (h : beBytes x = beBytes y) : x = y := by
  have hx := ofBe_beBytes x
  have hy := ofBe_beBytes y
  simp only [beBytes, List.cons.injEq, and_true] at h
  obtain ⟨h1, h2, h3, h4⟩ := h
  rw [← hx, ← hy, h1, h2, h3, h4]

-- ============================================================================
-- Strings
-- ============================================================================

/-- `str::as_bytes`. -/
def strBytes (s : String) : Bytes := s.toByteArray.data.toList

/-- `std::str::from_utf8`. -/
def fromUtf8 (b : Bytes) : Option String := String.fromUTF8? ⟨b.toArray⟩

@[simp] theorem fromUtf8_strBytes (s : String) : fromUtf8 (strBytes s) = some s := by
  have h : (⟨(strBytes s).toArray⟩ : ByteArray) = s.toByteArray := by
    simp [strBytes]
  rw [fromUtf8, h, String.fromUTF8?, dif_pos s.isValidUTF8]
  rfl

/-- An accepted byte string is the encoding of the string it was read as. -/
theorem strBytes_of_fromUtf8 {b : Bytes} {s : String} (h : fromUtf8 b = some s) :
    strBytes s = b := by
  rw [fromUtf8, String.fromUTF8?] at h
  split at h
  · cases h
    simp [strBytes, String.fromUTF8]
  · cases h

theorem strBytes_injective {s t : String} (h : strBytes s = strBytes t) : s = t := by
  have hs := fromUtf8_strBytes s
  rw [h, fromUtf8_strBytes] at hs
  exact (Option.some.inj hs).symm

end Ssproxy.Lib
