/-
  Ssproxy.HostKeyFile

  The two texts the daemon writes for its host key: the public key line, in
  base64 (`src/crypto/mod.rs`), and the seed file, in hexadecimal
  (`src/config.rs`), which it also reads back.
-/

import Ssproxy.Lib.Numeral
import Ssproxy.Crypto
import Mathlib.Data.List.Basic
import Mathlib.Data.Nat.Bitwise

namespace Ssproxy

open Lib Wire

-- ============================================================================
-- Base64
-- ============================================================================

/-- The table `T` of `b64`. -/
def base64Table : List Char :=
  ['A', 'B', 'C', 'D', 'E', 'F', 'G', 'H', 'I', 'J', 'K', 'L', 'M', 'N', 'O', 'P',
   'Q', 'R', 'S', 'T', 'U', 'V', 'W', 'X', 'Y', 'Z', 'a', 'b', 'c', 'd', 'e', 'f',
   'g', 'h', 'i', 'j', 'k', 'l', 'm', 'n', 'o', 'p', 'q', 'r', 's', 't', 'u', 'v',
   'w', 'x', 'y', 'z', '0', '1', '2', '3', '4', '5', '6', '7', '8', '9', '+', '/']

/-- One round of `b64`, with `left` bytes from `i` on; a missing byte is 0.
    `none` is an index outside the table, which would panic. -/
def b64Round (left : Nat) (b0 b1 b2 : UInt8) : Option (List Char) := do
  let c0 ← base64Table[(b0 >>> 2).toNat]?
  let c1 ← base64Table[(((b0 &&& 0x03) <<< 4) ||| (b1 >>> 4)).toNat]?
  let c2 ← (if 1 < left then base64Table[(((b1 &&& 0x0f) <<< 2) ||| (b2 >>> 6)).toNat]?
    else some '=')
  let c3 ← (if 2 < left then base64Table[(b2 &&& 0x3f).toNat]? else some '=')
  return [c0, c1, c2, c3]

/-- The loop of `b64`, over the bytes from `i` on. -/
def b64Loop : Bytes → Option (List Char)
  | [] => some []
  | [b0] => b64Round 1 b0 0 0
  | [b0, b1] => b64Round 2 b0 b1 0
  | b0 :: b1 :: b2 :: rest => do
      let cs ← b64Round (rest.length + 3) b0 b1 b2
      let more ← b64Loop rest
      return cs ++ more

def b64 (data : Bytes) : Option String := (b64Loop data).map String.ofList

/-- The value of a character in the base64 alphabet of RFC 4648. -/
def sextet (c : Char) : Option Nat :=
  if 'A' ≤ c ∧ c ≤ 'Z' then some (c.toNat - 'A'.toNat)
  else if 'a' ≤ c ∧ c ≤ 'z' then some (c.toNat - 'a'.toNat + 26)
  else if '0' ≤ c ∧ c ≤ '9' then some (c.toNat - '0'.toNat + 52)
  else if c = '+' then some 62
  else if c = '/' then some 63
  else none

/-- Decoding by RFC 4648: 24 bits from four characters.  Padding stands only in
    the last group, over bits that are 0. -/
def decodeBase64 : List Char → Option Bytes
  | [] => some []
  | [a, b, '=', '='] => do
      let n := (← sextet a) * 64 + (← sextet b)
      if n % 16 = 0 then some [UInt8.ofNat (n / 16)] else none
  | [a, b, c, '='] => do
      let n := (← sextet a) * 4096 + (← sextet b) * 64 + (← sextet c)
      if n % 4 = 0 then some [UInt8.ofNat (n / 1024), UInt8.ofNat (n / 4)] else none
  | a :: b :: c :: d :: rest => do
      let n := (← sextet a) * 262144 + (← sextet b) * 4096 + (← sextet c) * 64 + (← sextet d)
      let more ← decodeBase64 rest
      some (UInt8.ofNat (n / 65536) :: UInt8.ofNat (n / 256) :: UInt8.ofNat n :: more)
  | _ => none

/-- Each six bits have their character, and the character says which. -/
theorem base64Table_get {i : Nat} (h : i < 64) :
    ∃ c, base64Table[i]? = some c ∧ sextet c = some i := by
  have hall : ((List.range 64).all fun i => base64Table[i]?.any fun c => sextet c == some i)
      = true := by decide +kernel
  obtain ⟨c, hc, hsextet⟩ := (Option.any_eq_true _ _).mp
    (List.all_eq_true.mp hall i (List.mem_range.mpr h))
  exact ⟨c, hc, eq_of_beq hsextet⟩

-- The four six-bit pieces of three bytes, as numbers.

/-- Two pieces in one byte: the high one moved up by `k` bits, the low one
    within `k` bits. -/
theorem toNat_splice {h l : UInt8} {k : Nat} (hk : k < 8) (hhigh : h.toNat < 2 ^ (8 - k))
    (hlow : l.toNat < 2 ^ k) :
    ((h <<< UInt8.ofNat k) ||| l).toNat = h.toNat * 2 ^ k + l.toNat := by
  have hkk : (UInt8.ofNat k).toNat = k := UInt8.toNat_ofNat_of_lt' (show k < 256 by omega)
  have hfits : h.toNat <<< k < 2 ^ 8 := by
    have hpow : 2 ^ (8 - k) * 2 ^ k = 2 ^ 8 := by rw [← Nat.pow_add, Nat.sub_add_cancel hk.le]
    rw [Nat.shiftLeft_eq, ← hpow]
    exact Nat.mul_lt_mul_of_pos_right hhigh (Nat.two_pow_pos k)
  rw [UInt8.toNat_or, UInt8.toNat_shiftLeft, hkk, Nat.mod_eq_of_lt hk, Nat.mod_eq_of_lt hfits,
    ← Nat.shiftLeft_add_eq_or_of_lt hlow, Nat.shiftLeft_eq]

theorem toNat_lowBits (b : UInt8) {k : Nat} (hk : k < 8) :
    (b &&& UInt8.ofNat (2 ^ k - 1)).toNat = b.toNat % 2 ^ k := by
  have hlt : 2 ^ k < 2 ^ 8 := Nat.pow_lt_pow_right (by omega) hk
  rw [UInt8.toNat_and, UInt8.toNat_ofNat_of_lt' (show 2 ^ k - 1 < 256 by omega)]
  exact Nat.and_two_pow_sub_one_eq_mod b.toNat k

theorem toNat_highBits (b : UInt8) {k : Nat} (hk : k < 8) :
    (b >>> UInt8.ofNat k).toNat = b.toNat / 2 ^ k := by
  have hkk : (UInt8.ofNat k).toNat = k := UInt8.toNat_ofNat_of_lt' (show k < 256 by omega)
  rw [UInt8.toNat_shiftRight, hkk, Nat.mod_eq_of_lt hk, Nat.shiftRight_eq_div_pow]

theorem toNat_piece0 (b0 : UInt8) : (b0 >>> 2).toNat = b0.toNat / 4 :=
  toNat_highBits b0 (by decide : 2 < 8)

theorem toNat_piece1 (b0 b1 : UInt8) :
    (((b0 &&& 0x03) <<< 4) ||| (b1 >>> 4)).toNat = b0.toNat % 4 * 16 + b1.toNat / 16 := by
  have hb1 := b1.toNat_lt
  have hhi : (b0 &&& 0x03).toNat = b0.toNat % 4 := toNat_lowBits b0 (by decide : 2 < 8)
  have hlo : (b1 >>> 4).toNat = b1.toNat / 16 := toNat_highBits b1 (by decide : 4 < 8)
  have h := toNat_splice (by decide : 4 < 8) (h := b0 &&& 0x03) (l := b1 >>> 4)
    (by rw [hhi]; omega) (by rw [hlo]; omega)
  rw [hhi, hlo] at h
  exact h

theorem toNat_piece2 (b1 b2 : UInt8) :
    (((b1 &&& 0x0f) <<< 2) ||| (b2 >>> 6)).toNat = b1.toNat % 16 * 4 + b2.toNat / 64 := by
  have hb2 := b2.toNat_lt
  have hhi : (b1 &&& 0x0f).toNat = b1.toNat % 16 := toNat_lowBits b1 (by decide : 4 < 8)
  have hlo : (b2 >>> 6).toNat = b2.toNat / 64 := toNat_highBits b2 (by decide : 6 < 8)
  have h := toNat_splice (by decide : 2 < 8) (h := b1 &&& 0x0f) (l := b2 >>> 6)
    (by rw [hhi]; omega) (by rw [hlo]; omega)
  rw [hhi, hlo] at h
  exact h

theorem toNat_piece3 (b2 : UInt8) : (b2 &&& 0x3f).toNat = b2.toNat % 64 :=
  toNat_lowBits b2 (by decide : 6 < 8)

/-- A whole round: four characters that stand for the three bytes. -/
theorem b64Round_three {left : Nat} (hleft : 2 < left) (b0 b1 b2 : UInt8) :
    ∃ c0 c1 c2 c3, b64Round left b0 b1 b2 = some [c0, c1, c2, c3] ∧
      sextet c0 = some (b0.toNat / 4) ∧ sextet c1 = some (b0.toNat % 4 * 16 + b1.toNat / 16) ∧
      sextet c2 = some (b1.toNat % 16 * 4 + b2.toNat / 64) ∧
      sextet c3 = some (b2.toNat % 64) := by
  have hb0 := b0.toNat_lt
  have hb1 := b1.toNat_lt
  have hb2 := b2.toNat_lt
  obtain ⟨c0, hc0, hs0⟩ := base64Table_get (show b0.toNat / 4 < 64 by omega)
  obtain ⟨c1, hc1, hs1⟩ := base64Table_get
    (show b0.toNat % 4 * 16 + b1.toNat / 16 < 64 by omega)
  obtain ⟨c2, hc2, hs2⟩ := base64Table_get
    (show b1.toNat % 16 * 4 + b2.toNat / 64 < 64 by omega)
  obtain ⟨c3, hc3, hs3⟩ := base64Table_get (show b2.toNat % 64 < 64 by omega)
  refine ⟨c0, c1, c2, c3, ?_, hs0, hs1, hs2, hs3⟩
  unfold b64Round
  rw [toNat_piece0, toNat_piece1, toNat_piece2, toNat_piece3, hc0, hc1, if_pos (by omega), hc2,
    if_pos hleft, hc3]
  rfl

/-- The round at a tail of two bytes. -/
theorem b64Round_two (b0 b1 : UInt8) :
    ∃ c0 c1 c2, b64Round 2 b0 b1 0 = some [c0, c1, c2, '='] ∧
      sextet c0 = some (b0.toNat / 4) ∧ sextet c1 = some (b0.toNat % 4 * 16 + b1.toNat / 16) ∧
      sextet c2 = some (b1.toNat % 16 * 4) := by
  have hb0 := b0.toNat_lt
  have hb1 := b1.toNat_lt
  obtain ⟨c0, hc0, hs0⟩ := base64Table_get (show b0.toNat / 4 < 64 by omega)
  obtain ⟨c1, hc1, hs1⟩ := base64Table_get
    (show b0.toNat % 4 * 16 + b1.toNat / 16 < 64 by omega)
  obtain ⟨c2, hc2, hs2⟩ := base64Table_get (show b1.toNat % 16 * 4 < 64 by omega)
  refine ⟨c0, c1, c2, ?_, hs0, hs1, hs2⟩
  unfold b64Round
  rw [toNat_piece0, toNat_piece1, toNat_piece2, hc0, hc1, if_pos (by decide)]
  rw [show b1.toNat % 16 * 4 + (0 : UInt8).toNat / 64 = b1.toNat % 16 * 4 from rfl, hc2]
  rfl

/-- The round at a tail of one byte. -/
theorem b64Round_one (b0 : UInt8) :
    ∃ c0 c1, b64Round 1 b0 0 0 = some [c0, c1, '=', '='] ∧
      sextet c0 = some (b0.toNat / 4) ∧ sextet c1 = some (b0.toNat % 4 * 16) := by
  have hb0 := b0.toNat_lt
  obtain ⟨c0, hc0, hs0⟩ := base64Table_get (show b0.toNat / 4 < 64 by omega)
  obtain ⟨c1, hc1, hs1⟩ := base64Table_get (show b0.toNat % 4 * 16 < 64 by omega)
  refine ⟨c0, c1, ?_, hs0, hs1⟩
  unfold b64Round
  rw [toNat_piece0, toNat_piece1, hc0]
  rw [show b0.toNat % 4 * 16 + (0 : UInt8).toNat / 16 = b0.toNat % 4 * 16 from rfl, hc1]
  rfl

/-- A character of the alphabet is not the padding. -/
theorem ne_pad {c : Char} {n : Nat} (h : sextet c = some n) : c ≠ '=' := by
  rintro rfl
  cases h

theorem ofNat_eq {n : Nat} {b : UInt8} (h : n % 256 = b.toNat) : UInt8.ofNat n = b := by
  apply UInt8.toNat_inj.mp
  rw [UInt8.toNat_ofNat']
  exact h

/-- Decoding a group of four without padding. -/
theorem decodeBase64_four {a b c d : Char} {x y z w : Nat} (ha : sextet a = some x)
    (hb : sextet b = some y) (hc : sextet c = some z) (hd : sextet d = some w)
    (rest : List Char) :
    decodeBase64 (a :: b :: c :: d :: rest) = (decodeBase64 rest).bind fun more =>
      let n := x * 262144 + y * 4096 + z * 64 + w
      some (UInt8.ofNat (n / 65536) :: UInt8.ofNat (n / 256) :: UInt8.ofNat n :: more) := by
  rw [decodeBase64.eq_4 a b c d rest (fun _ h _ => absurd h (ne_pad hd))
    (fun h _ => absurd h (ne_pad hd)), ha, hb, hc, hd]
  rfl

theorem decodeBase64_three {a b c : Char} {x y z : Nat} (ha : sextet a = some x)
    (hb : sextet b = some y) (hc : sextet c = some z) (hpad : z % 4 = 0) :
    decodeBase64 [a, b, c, '='] = some
      [UInt8.ofNat ((x * 4096 + y * 64 + z) / 1024), UInt8.ofNat ((x * 4096 + y * 64 + z) / 4)] := by
  rw [decodeBase64.eq_3 a b c (fun h => absurd h (ne_pad hc)), ha, hb, hc]
  exact if_pos (by omega)

theorem decodeBase64_two {a b : Char} {x y : Nat} (ha : sextet a = some x)
    (hb : sextet b = some y) (hpad : y % 16 = 0) :
    decodeBase64 [a, b, '=', '='] = some [UInt8.ofNat ((x * 64 + y) / 16)] := by
  rw [decodeBase64, ha, hb]
  exact if_pos (by omega)

/-- `b64` never leaves its table, and its output decodes to its input. -/
theorem b64Loop_spec (data : Bytes) :
    ∃ body : List Char, b64Loop data
        = some (body ++ List.replicate ((3 - data.length % 3) % 3) '=') ∧
      (∀ c ∈ body, (sextet c).isSome) ∧
      body.length + (3 - data.length % 3) % 3 = 4 * ((data.length + 2) / 3) ∧
      decodeBase64 (body ++ List.replicate ((3 - data.length % 3) % 3) '=') = some data := by
  induction data using b64Loop.induct with
  | case1 => exact ⟨[], rfl, by simp, by simp, rfl⟩
  | case2 b0 =>
    have hb0 := b0.toNat_lt
    obtain ⟨c0, c1, hrun, h0, h1⟩ := b64Round_one b0
    refine ⟨[c0, c1], hrun, by simp [h0, h1], by simp, ?_⟩
    rw [← ofNat_eq (b := b0) (n := (b0.toNat / 4 * 64 + b0.toNat % 4 * 16) / 16) (by omega)]
    exact decodeBase64_two h0 h1 (by omega)
  | case3 b0 b1 =>
    have hb0 := b0.toNat_lt
    have hb1 := b1.toNat_lt
    obtain ⟨c0, c1, c2, hrun, h0, h1, h2⟩ := b64Round_two b0 b1
    refine ⟨[c0, c1, c2], hrun, by simp [h0, h1, h2], by simp, ?_⟩
    refine (decodeBase64_three h0 h1 h2 (by omega)).trans ?_
    rw [ofNat_eq (b := b0) (by omega), ofNat_eq (b := b1) (by omega)]
  | case4 b0 b1 b2 rest ih =>
    have hb0 := b0.toNat_lt
    have hb1 := b1.toNat_lt
    have hb2 := b2.toNat_lt
    obtain ⟨body, hloop, hbody, hlen, hdec⟩ := ih
    obtain ⟨c0, c1, c2, c3, hrun, h0, h1, h2, h3⟩ :=
      b64Round_three (show 2 < rest.length + 3 by omega) b0 b1 b2
    have hmod : (b0 :: b1 :: b2 :: rest).length % 3 = rest.length % 3 := by
      simp only [List.length_cons]
      omega
    rw [hmod]
    refine ⟨c0 :: c1 :: c2 :: c3 :: body, ?_, ?_, ?_, ?_⟩
    · rw [b64Loop, hrun, hloop]
      rfl
    · simp only [List.forall_mem_cons, h0, h1, h2, h3]
      exact ⟨rfl, rfl, rfl, rfl, hbody⟩
    · simp only [List.length_cons]
      omega
    · rw [List.cons_append, List.cons_append, List.cons_append, List.cons_append,
        decodeBase64_four h0 h1 h2 h3, hdec, Option.bind_some]
      dsimp only
      rw [ofNat_eq (b := b0) (by omega), ofNat_eq (b := b1) (by omega),
        ofNat_eq (b := b2) (by omega)]

/-- `b64` of every byte string: characters of the alphabet, four for each three
    bytes begun, the last ones padded, and decoding gives the bytes back. -/
theorem b64_roundTrip (data : Bytes) :
    ∃ body : List Char, ∃ text : String,
      b64 data = some text ∧
      text.toList = body ++ List.replicate ((3 - data.length % 3) % 3) '=' ∧
      (∀ c ∈ body, (sextet c).isSome) ∧
      text.length = 4 * ((data.length + 2) / 3) ∧
      decodeBase64 text.toList = some data := by
  obtain ⟨body, hloop, hbody, hlen, hdec⟩ := b64Loop_spec data
  refine ⟨body, _, by rw [b64, hloop, Option.map_some], ?_, hbody, ?_, ?_⟩
  · rw [String.toList_ofList]
  · rw [String.length_ofList, List.length_append, List.length_replicate, hlen]
  · rw [String.toList_ofList, hdec]

/-- `openssh_public_line`. -/
def HostKey.opensshPublicLine [CryptoLib] (k : HostKey) (comment : String) : Option String :=
  (b64 k.publicBlob).map fun text => "ssh-ed25519 " ++ text ++ " " ++ comment

/-- The second word of the line is the public key. -/
theorem opensshPublicLine_decodes [CryptoLib] (k : HostKey) (comment : String) :
    ∃ text : String,
      k.opensshPublicLine comment = some ("ssh-ed25519 " ++ text ++ " " ++ comment) ∧
      decodeBase64 text.toList = some k.publicBlob := by
  obtain ⟨body, hloop, -, -, hdec⟩ := b64Loop_spec k.publicBlob
  refine ⟨_, by rw [HostKey.opensshPublicLine, b64, hloop]; rfl, ?_⟩
  rw [String.toList_ofList, hdec]

-- ============================================================================
-- The lines of a text
-- ============================================================================

/-- The characters with the property White_Space, which `str::trim` removes. -/
def isWhiteSpace (c : Char) : Bool :=
  let n := c.toNat
  (9 ≤ n && n ≤ 13) || n == 0x20 || n == 0x85 || n == 0xa0 || n == 0x1680 ||
    (0x2000 ≤ n && n ≤ 0x200a) || n == 0x2028 || n == 0x2029 || n == 0x202f || n == 0x205f ||
    n == 0x3000

/-- `str::trim`. -/
def trim (cs : List Char) : List Char :=
  ((cs.dropWhile isWhiteSpace).reverse.dropWhile isWhiteSpace).reverse

/-- A line without its carriage return. -/
def stripCr (line : List Char) : List Char :=
  if line.getLast? = some '\r' then line.dropLast else line

/-- `next()` of `str::lines`: the line, and what is left of the text.  A
    carriage return belongs to the line end only if a newline follows. -/
def nextLine (text : List Char) : Option (List Char × List Char) :=
  match text with
  | [] => none
  | _ =>
      match text.dropWhile (· != '\n') with
      | [] => some (text, [])
      | _ :: rest => some (stripCr (text.takeWhile (· != '\n')), rest)

/-- `lines.next().unwrap_or("")`, twice. -/
def twoLines (text : List Char) : List Char × List Char :=
  let first := (nextLine text).getD ([], [])
  let second := (nextLine first.2).getD ([], [])
  (first.1, second.1)

-- ============================================================================
-- The seed file
-- ============================================================================

/-- `str::is_char_boundary`, on the UTF-8 bytes. -/
def isCharBoundary (s : Bytes) (i : Nat) : Bool :=
  if i = 0 then true
  else if s.length ≤ i then i == s.length
  else !(0x80 ≤ s.getD i 0 && s.getD i 0 < 0xc0)

/-- `&s[lo..hi]` of a string: a panic inside a character. -/
def strSlice {σ : Type} (s : Bytes) (lo hi : Nat) : Proc σ Error Bytes :=
  if lo ≤ hi ∧ isCharBoundary s lo = true ∧ isCharBoundary s hi = true then
    Proc.slice s lo hi
  else Proc.abort

/-- `(b as char).to_digit(16)`. -/
def hexDigit (b : UInt8) : Option Nat :=
  let n := b.toNat
  if 48 ≤ n ∧ n ≤ 57 then some (n - 48)
  else if 97 ≤ n ∧ n ≤ 102 then some (n - 87)
  else if 65 ≤ n ∧ n ≤ 70 then some (n - 55)
  else none

/-- The digits of `from_str_radix`, from the value so far; `none` is a bad
    digit or an overflow of `u8`. -/
def radixLoop : Nat → Bytes → Option Nat
  | acc, [] => some acc
  | acc, b :: bs =>
      match hexDigit b with
      | none => none
      | some d => if acc * 16 + d < 256 then radixLoop (acc * 16 + d) bs else none

/-- `u8::from_str_radix(src, 16)`: no digits are an error, and one plus sign
    may stand in front of them. -/
def fromStrRadix16 (src : Bytes) : Option UInt8 :=
  match src with
  | [] => none
  | [0x2b] | [0x2d] => none
  | 0x2b :: digits => (radixLoop 0 digits).map UInt8.ofNat
  | digits => (radixLoop 0 digits).map UInt8.ofNat

/-- The loop of `parse_host_key`: `n` bytes of the seed, from byte `i` on. -/
def seedLoop {σ : Type} (hex : Bytes) : (n : Nat) → Nat → Proc σ Error (Block n)
  | 0, _ => pure ⟨[], rfl⟩
  | n + 1, i => do
      let pair ← strSlice hex (i * 2) (i * 2 + 2)
      let b ← Proc.okOr (fromStrRadix16 pair) (.protocol "bad host key hex")
      let rest ← seedLoop hex n (i + 1)
      return ⟨b :: rest.val, by rw [List.length_cons, rest.property]⟩

def seedHeader : String := "ssproxy-ed25519-seed-v1"

/-- `parse_host_key`. -/
def parseHostKey {σ : Type} (text : String) : Proc σ Error HostKey := do
  let lines := twoLines text.toList
  Proc.failIf (trim lines.1 ≠ seedHeader.toList) (.protocol "unsupported host key format")
  let hex := strBytes (String.ofList (trim lines.2))
  Proc.failIf (hex.length ≠ 64) (.protocol "bad host key seed")
  let seed ← seedLoop hex 32 0
  return ⟨seed⟩

/-- `format!("{b:02x}")`. -/
def lowerHex (b : UInt8) : List Char :=
  [Nat.digitChar (b.toNat / 16), Nat.digitChar (b.toNat % 16)]

/-- The text that `save_host_key` writes. -/
def saveHostKey (key : HostKey) : String :=
  seedHeader ++ "\n" ++ String.ofList (key.signing.val.flatMap lowerHex) ++ "\n"

-- ============================================================================
-- One pair of characters
-- ============================================================================

/-- What one step of the loop takes for a byte: two digits, or a sign and one. -/
def Reads (a b : UInt8) : Prop :=
  ((hexDigit a).isSome ∨ a = 0x2b) ∧ (hexDigit b).isSome

theorem hexDigit_lt {b : UInt8} {d : Nat} (h : hexDigit b = some d) : d < 16 := by
  unfold hexDigit at h
  dsimp only at h
  split at h
  · cases h
    omega
  · split at h
    · cases h
      omega
    · split at h
      · cases h
        omega
      · cases h

theorem hexDigit_plus : hexDigit 0x2b = none := by decide

theorem fromStrRadix16_unsigned {a b : UInt8} (ha : a ≠ 0x2b) :
    fromStrRadix16 [a, b] = (radixLoop 0 [a, b]).map UInt8.ofNat :=
  fromStrRadix16.eq_5 [a, b] (by simp) (by simp) (by simp) (by simpa using ha)

/-- Two digits are read as the byte they stand for. -/
theorem fromStrRadix16_digits {a b : UInt8} {x y : Nat} (ha : hexDigit a = some x)
    (hb : hexDigit b = some y) : fromStrRadix16 [a, b] = some (UInt8.ofNat (16 * x + y)) := by
  have hx := hexDigit_lt ha
  have hy := hexDigit_lt hb
  have hplus : a ≠ 0x2b := by
    rintro rfl
    cases ha
  have hloop : radixLoop 0 [a, b] = some (16 * x + y) := by
    rw [radixLoop, ha]
    dsimp only
    rw [if_pos (by omega), radixLoop, hb]
    dsimp only
    rw [if_pos (by omega), radixLoop]
    congr 1
    omega
  rw [fromStrRadix16_unsigned hplus, hloop]
  rfl

/-- A sign and a digit are read as the digit. -/
theorem fromStrRadix16_plus (b : UInt8) :
    fromStrRadix16 [0x2b, b] = (hexDigit b).map UInt8.ofNat := by
  rw [fromStrRadix16.eq_4 [b] (by simp), radixLoop]
  cases hb : hexDigit b with
  | none => rfl
  | some y =>
    have hy := hexDigit_lt hb
    dsimp only
    rw [if_pos (by omega), radixLoop, Nat.zero_mul, Nat.zero_add]

/-- Which pairs are read at all. -/
theorem fromStrRadix16_isSome (a b : UInt8) : (fromStrRadix16 [a, b]).isSome ↔ Reads a b := by
  by_cases hplus : a = 0x2b
  · subst hplus
    rw [fromStrRadix16_plus, Option.isSome_map]
    exact ⟨fun h => ⟨.inr rfl, h⟩, fun h => h.2⟩
  · rw [Reads, or_iff_left hplus]
    cases ha : hexDigit a with
    | none =>
      rw [fromStrRadix16_unsigned hplus, radixLoop, ha]
      simp
    | some x =>
      cases hb : hexDigit b with
      | none =>
        have hx := hexDigit_lt ha
        rw [fromStrRadix16_unsigned hplus, radixLoop, ha]
        dsimp only
        rw [if_pos (by omega), radixLoop, hb]
        simp
      | some y =>
        rw [fromStrRadix16_digits ha hb]
        simp

-- ============================================================================
-- The loop over the pairs
-- ============================================================================

/-- The byte string and what its pairs are read as. -/
inductive Pairs : Bytes → Bytes → Prop
  | nil : Pairs [] []
  | cons {a b v : UInt8} {hex seed : Bytes} (hv : fromStrRadix16 [a, b] = some v)
      (h : Pairs hex seed) : Pairs (a :: b :: hex) (v :: seed)

/-- The pair at `2 * i`. -/
def ReadsAt (hex : Bytes) (i : Nat) : Prop :=
  Reads (hex.getD (2 * i) 0) (hex.getD (2 * i + 1) 0)

theorem drop_pair {hex : Bytes} {i : Nat} (h : i * 2 + 2 ≤ hex.length) :
    hex.drop (i * 2) = hex.getD (2 * i) 0 :: hex.getD (2 * i + 1) 0 :: hex.drop ((i + 1) * 2) := by
  have h0 : 2 * i < hex.length := by omega
  have h1 : 2 * i + 1 < hex.length := by omega
  rw [Nat.mul_comm i 2, List.drop_eq_getElem_cons h0, List.drop_eq_getElem_cons h1,
    List.getD_eq_getElem _ _ h0, List.getD_eq_getElem _ _ h1]
  rw [show 2 * i + 1 + 1 = (i + 1) * 2 by omega]

section

variable {σ : Type} {hex : Bytes}

/-- One step of the loop. -/
theorem seedLoop_succ {n i : Nat} (hstart : isCharBoundary hex (i * 2) = true)
    (h : i * 2 + 2 ≤ hex.length) (s : σ) :
    seedLoop hex (n + 1) i s =
      if isCharBoundary hex (i * 2 + 2) = true then
        match fromStrRadix16 [hex.getD (2 * i) 0, hex.getD (2 * i + 1) 0] with
        | none => .err (.protocol "bad host key hex") s
        | some b => (seedLoop hex n (i + 1) s).bind fun rest s =>
            .ok ⟨b :: rest.val, by rw [List.length_cons, rest.property]⟩ s
      else .panic := by
  have hpair : ((hex.drop (i * 2)).take (i * 2 + 2 - i * 2))
      = [hex.getD (2 * i) 0, hex.getD (2 * i + 1) 0] := by
    rw [drop_pair h, Nat.add_sub_cancel_left]
    rfl
  rw [seedLoop]
  split
  · next hend =>
    have hslice : (strSlice hex (i * 2) (i * 2 + 2) : Proc σ Error Bytes) s
        = .ok [hex.getD (2 * i) 0, hex.getD (2 * i + 1) 0] s := by
      rw [strSlice, if_pos ⟨Nat.le_add_right _ _, hstart, hend⟩,
        Proc.slice_of_le (Nat.le_add_right _ _) h, hpair]
    rw [Proc.bind_of_ok hslice]
    cases hread : fromStrRadix16 [hex.getD (2 * i) 0, hex.getD (2 * i + 1) 0] with
    | none => rfl
    | some b => rfl
  · next hend =>
    rw [strSlice, if_neg (fun hall => hend hall.2.2)]
    rfl

theorem readsAt_iff {i : Nat} :
    (fromStrRadix16 [hex.getD (2 * i) 0, hex.getD (2 * i + 1) 0]).isSome ↔ ReadsAt hex i :=
  fromStrRadix16_isSome _ _

/-- When the loop panics: a slice ends within a character, and all pairs before
    it were read. -/
theorem seedLoop_panic {n i : Nat} (hstart : isCharBoundary hex (i * 2) = true)
    (h : (i + n) * 2 ≤ hex.length) (s : σ) :
    seedLoop hex n i s = .panic ↔
      ∃ j < n, isCharBoundary hex ((i + j) * 2 + 2) = false ∧ ∀ k < j, ReadsAt hex (i + k) := by
  induction n generalizing i with
  | zero =>
    constructor
    · intro hpanic
      cases hpanic
    · rintro ⟨j, hj, -⟩
      exact absurd hj (Nat.not_lt_zero j)
  | succ n ih =>
    rw [seedLoop_succ hstart (by omega)]
    split
    · next hend =>
      cases hread : fromStrRadix16 [hex.getD (2 * i) 0, hex.getD (2 * i + 1) 0] with
      | none =>
        constructor
        · intro hpanic
          cases hpanic
        · rintro ⟨j, -, hcut, hreads⟩
          cases j with
          | zero => exact absurd hend (Bool.eq_false_iff.mp hcut)
          | succ j =>
            have hfirst := readsAt_iff.mpr (hreads 0 (Nat.succ_pos j))
            rw [Nat.add_zero, hread] at hfirst
            cases hfirst
      | some b =>
        have hfirst : ReadsAt hex i := readsAt_iff.mp (by rw [hread]; rfl)
        have hbind : ∀ o : Outcome σ Error (Block n), (o.bind fun rest s =>
            .ok ⟨b :: rest.val, by rw [List.length_cons, rest.property]⟩ s
              : Outcome σ Error (Block (n + 1))) = .panic ↔ o = .panic := by
          intro o
          cases o <;> simp
        rw [hbind, ih (i := i + 1) (by rw [Nat.add_mul]; exact hend) (by omega)]
        constructor
        · rintro ⟨j, hj, hcut, hreads⟩
          refine ⟨j + 1, Nat.succ_lt_succ hj, by rw [← hcut]; congr 1; omega, fun k hk => ?_⟩
          cases k with
          | zero => exact hfirst
          | succ k =>
            rw [← Nat.add_assoc, Nat.add_right_comm]
            exact hreads k (Nat.lt_of_succ_lt_succ hk)
        · rintro ⟨j, hj, hcut, hreads⟩
          cases j with
          | zero => exact absurd hend (Bool.eq_false_iff.mp hcut)
          | succ j =>
            refine ⟨j, Nat.lt_of_succ_lt_succ hj, by rw [← hcut]; congr 1; omega, fun k hk => ?_⟩
            rw [Nat.add_right_comm, Nat.add_assoc]
            exact hreads (k + 1) (Nat.succ_lt_succ hk)
    · next hend =>
      refine iff_of_true rfl ⟨0, Nat.succ_pos n, ?_, fun k hk => absurd hk (Nat.not_lt_zero k)⟩
      exact Bool.eq_false_iff.mpr hend

/-- When the loop returns, and what. -/
theorem seedLoop_ok {n i : Nat} (hstart : isCharBoundary hex (i * 2) = true)
    (h : (i + n) * 2 = hex.length) (seed : Block n) (s : σ) :
    seedLoop hex n i s = .ok seed s ↔
      (∀ j < n, isCharBoundary hex ((i + j) * 2 + 2) = true) ∧
      Pairs (hex.drop (i * 2)) seed.val := by
  induction n generalizing i with
  | zero =>
    have hdrop : hex.drop (i * 2) = [] := List.drop_eq_nil_of_le (by omega)
    have hseed : seed = ⟨[], rfl⟩ := Subtype.ext (List.length_eq_zero_iff.mp seed.property)
    rw [hseed, hdrop]
    exact iff_of_true rfl ⟨fun j hj => absurd hj (Nat.not_lt_zero j), .nil⟩
  | succ n ih =>
    obtain ⟨_ | ⟨v, rest⟩, hlen⟩ := seed
    · cases hlen
    · have hrest : rest.length = n := Nat.succ.inj hlen
      rw [seedLoop_succ hstart (by omega), drop_pair (by omega)]
      have hshift : (∀ j < n + 1, isCharBoundary hex ((i + j) * 2 + 2) = true) ↔
          isCharBoundary hex (i * 2 + 2) = true ∧
            ∀ j < n, isCharBoundary hex ((i + 1 + j) * 2 + 2) = true := by
        rw [Nat.forall_lt_succ_left]
        simp only [Nat.add_zero, Nat.add_assoc, Nat.add_comm 1]
      rw [hshift]
      split
      · next hend =>
        rw [and_iff_right hend]
        have hih := ih (i := i + 1) (by rw [Nat.add_mul]; exact hend) (by omega) ⟨rest, hrest⟩
        cases hread : fromStrRadix16 [hex.getD (2 * i) 0, hex.getD (2 * i + 1) 0] with
        | none =>
          refine iff_of_false (fun hok => by cases hok) ?_
          rintro ⟨-, hpairs⟩
          cases hpairs with
          | cons hv _ =>
            rw [hread] at hv
            cases hv
        | some b =>
          dsimp only
          constructor
          · intro hok
            obtain ⟨rest', s', hrun, heq⟩ := Outcome.of_bind_eq_ok hok
            cases heq
            obtain ⟨hcuts, hpairs⟩ := hih.mp hrun
            exact ⟨hcuts, .cons hread hpairs⟩
          · rintro ⟨hcuts, hpairs⟩
            cases hpairs with
            | cons hv hpairs =>
              rw [hread] at hv
              cases hv
              rw [hih.mpr ⟨hcuts, hpairs⟩]
              rfl
      · next hend =>
        exact iff_of_false (fun hok => by cases hok) (fun hall => hend hall.1.1)

end

-- ============================================================================
-- The grammar of the file
-- ============================================================================

/-- The value of an ASCII hexadecimal digit. -/
def hexValue (c : Char) : Option Nat :=
  let n := c.toNat
  if '0'.toNat ≤ n ∧ n ≤ '9'.toNat then some (n - '0'.toNat)
  else if 'a'.toNat ≤ n ∧ n ≤ 'f'.toNat then some (n - 'a'.toNat + 10)
  else if 'A'.toNat ≤ n ∧ n ≤ 'F'.toNat then some (n - 'A'.toNat + 10)
  else none

/-- The number that digits stand for. -/
def hexNumber (cs : List Char) : Nat := cs.foldl (fun n c => 16 * n + (hexValue c).getD 0) 0

/-- The text has the v1 header and 64 digits below it, the digits of `key`. -/
structure IsSeedFile (text : String) (key : HostKey) : Prop where
  header : trim (twoLines text.toList).1 = seedHeader.toList
  length : (trim (twoLines text.toList).2).length = 64
  digits : ∀ c ∈ trim (twoLines text.toList).2, (hexValue c).isSome
  value : ofBytes key.signing.val = hexNumber (trim (twoLines text.toList).2)

theorem toNat_lt_of_hexValue {c : Char} (h : (hexValue c).isSome) : c.toNat < 128 := by
  by_contra hge
  have h9 : '9'.toNat = 57 := rfl
  have hf : 'f'.toNat = 102 := rfl
  have hF : 'F'.toNat = 70 := rfl
  rw [hexValue, if_neg (by omega), if_neg (by omega), if_neg (by omega)] at h
  cases h

theorem toNat_lt_of_hexDigit {b : UInt8} (h : (hexDigit b).isSome) : b.toNat < 128 := by
  by_contra hge
  rw [hexDigit, if_neg (by omega), if_neg (by omega), if_neg (by omega)] at h
  cases h

theorem hexDigit_ofNat {c : Char} (h : c.toNat < 128) :
    hexDigit (UInt8.ofNat c.toNat) = hexValue c := by
  have hn : (UInt8.ofNat c.toNat).toNat = c.toNat :=
    UInt8.toNat_ofNat_of_lt' (show c.toNat < 256 by omega)
  rw [hexDigit, hexValue, hn]
  show (if 48 ≤ c.toNat ∧ c.toNat ≤ 57 then _ else _) = if 48 ≤ c.toNat ∧ c.toNat ≤ 57 then _ else _
  congr 1
  show (if 97 ≤ c.toNat ∧ c.toNat ≤ 102 then _ else _)
    = if 97 ≤ c.toNat ∧ c.toNat ≤ 102 then _ else _
  split
  · congr 1
    show c.toNat - 87 = c.toNat - 97 + 10
    omega
  · show (if 65 ≤ c.toNat ∧ c.toNat ≤ 70 then _ else _)
      = if 65 ≤ c.toNat ∧ c.toNat ≤ 70 then _ else _
    split
    · congr 1
      show c.toNat - 55 = c.toNat - 65 + 10
      omega
    · rfl

/-- ASCII characters are one byte each. -/
theorem strBytes_ascii {cs : List Char} (h : ∀ c ∈ cs, c.toNat < 128) :
    strBytes (String.ofList cs) = cs.map fun c => UInt8.ofNat c.toNat := by
  have hflat : cs.flatMap String.utf8EncodeChar = cs.map fun c => UInt8.ofNat c.toNat := by
    induction cs with
    | nil => rfl
    | cons c cs ih =>
      rw [List.forall_mem_cons] at h
      have hc : c.val.toNat ≤ 0x7f := Nat.le_of_lt_succ h.1
      rw [List.flatMap_cons, List.map_cons, ih h.2, String.utf8EncodeChar, if_pos hc]
      rfl
  rw [strBytes, String.toByteArray_ofList, List.utf8Encode, hflat]
  simp

/-- Bytes that are all digits come from characters that are digits. -/
theorem digits_of_strBytes {cs : List Char}
    (h : ∀ b ∈ strBytes (String.ofList cs), (hexDigit b).isSome) :
    ∀ c ∈ cs, (hexValue c).isSome := by
  have hchar : ∀ n < 128, (Char.ofNat n).toNat = n := by
    intro n hn
    rw [Char.ofNat, dif_pos (show n.isValidChar from .inl (by omega))]
    rfl
  -- the bytes, read as characters, are the characters
  have hcs : (strBytes (String.ofList cs)).map (fun b => Char.ofNat b.toNat) = cs := by
    apply String.ofList_injective
    apply strBytes_injective
    rw [strBytes_ascii, List.map_map]
    · refine (List.map_congr_left fun b hb => ?_).trans (List.map_id _)
      rw [Function.comp_apply, hchar _ (toNat_lt_of_hexDigit (h b hb)), UInt8.ofNat_toNat]
      rfl
    · intro c hc
      obtain ⟨b, hb, rfl⟩ := List.mem_map.mp hc
      rw [hchar _ (toNat_lt_of_hexDigit (h b hb))]
      exact toNat_lt_of_hexDigit (h b hb)
  intro c hc
  rw [← hcs] at hc
  obtain ⟨b, hb, rfl⟩ := List.mem_map.mp hc
  have hlt := toNat_lt_of_hexDigit (h b hb)
  rw [← hexDigit_ofNat (by rw [hchar _ hlt]; exact hlt), hchar _ hlt, UInt8.ofNat_toNat]
  exact h b hb

namespace Pairs

theorem length_eq {hex seed : Bytes} (h : Pairs hex seed) : hex.length = 2 * seed.length := by
  induction h with
  | nil => rfl
  | cons hv h ih =>
    rw [List.length_cons, List.length_cons, ih, List.length_cons]
    omega

/-- Every pair was read. -/
theorem readsAt {hex seed : Bytes} (h : Pairs hex seed) : ∀ i < seed.length, ReadsAt hex i := by
  induction h with
  | nil => exact fun i hi => absurd hi (Nat.not_lt_zero i)
  | @cons a b v hex seed hv h ih =>
    intro i hi
    cases i with
    | zero => exact (fromStrRadix16_isSome a b).mp (by rw [hv]; rfl)
    | succ i =>
      have := ih i (Nat.lt_of_succ_lt_succ hi)
      rw [ReadsAt, show 2 * (i + 1) = 2 * i + 1 + 1 by omega]
      exact this

/-- Digits only: the seed has the value of the digits. -/
theorem ofBytes_eq {hex seed : Bytes} (h : Pairs hex seed)
    (hdigits : ∀ b ∈ hex, (hexDigit b).isSome) :
    ofBytes seed = hex.foldl (fun n b => 16 * n + (hexDigit b).getD 0) 0 := by
  have hacc : ∀ acc, seed.foldl (fun n b => 256 * n + b.toNat) acc
      = hex.foldl (fun n b => 16 * n + (hexDigit b).getD 0) acc := by
    induction h with
    | nil => exact fun acc => rfl
    | @cons a b v hex seed hv h ih =>
      intro acc
      simp only [List.forall_mem_cons] at hdigits
      obtain ⟨ha, hb, hrest⟩ := hdigits
      obtain ⟨x, hx⟩ := Option.isSome_iff_exists.mp ha
      obtain ⟨y, hy⟩ := Option.isSome_iff_exists.mp hb
      have hxlt := hexDigit_lt hx
      have hylt := hexDigit_lt hy
      rw [fromStrRadix16_digits hx hy] at hv
      cases hv
      rw [List.foldl_cons, List.foldl_cons, List.foldl_cons, ih hrest, hx, hy,
        UInt8.toNat_ofNat_of_lt' (show 16 * x + y < 256 by omega)]
      congr 1
      dsimp only [Option.getD_some]
      omega
  exact hacc 0

/-- Where every pair is read there is a seed. -/
theorem exists_of_readsAt : ∀ {n : Nat} {hex : Bytes}, hex.length = 2 * n →
    (∀ i < n, ReadsAt hex i) → ∃ seed, Pairs hex seed
  | 0, hex, hlen, _ => ⟨[], by rw [List.length_eq_zero_iff.mp hlen]; exact .nil⟩
  | n + 1, [], hlen, _ => by simp at hlen
  | n + 1, [_], hlen, _ => by simp at hlen; omega
  | n + 1, a :: b :: hex, hlen, hreads => by
      have hfirst : Reads a b := hreads 0 (Nat.succ_pos n)
      obtain ⟨v, hv⟩ := Option.isSome_iff_exists.mp ((fromStrRadix16_isSome a b).mpr hfirst)
      obtain ⟨seed, hseed⟩ : ∃ seed, Pairs hex seed := exists_of_readsAt (n := n)
        (by rw [List.length_cons, List.length_cons] at hlen; omega) fun i hi => by
          have hnext := hreads (i + 1) (Nat.succ_lt_succ hi)
          rw [ReadsAt, show 2 * (i + 1) = 2 * i + 1 + 1 by omega] at hnext
          exact hnext
      exact ⟨_, .cons hv hseed⟩

end Pairs

-- ============================================================================
-- Reading back what was written
-- ============================================================================

theorem nextLine_append {line : List Char} (hline : ∀ c ∈ line, c ≠ '\n')
    (hcr : line.getLast? ≠ some '\r') (rest : List Char) :
    nextLine (line ++ '\n' :: rest) = some (line, rest) := by
  have hspan : ∀ c ∈ line, (c != '\n') = true := fun c hc => by simpa using hline c hc
  have hdrop : (line ++ '\n' :: rest).dropWhile (· != '\n') = '\n' :: rest := by
    rw [List.dropWhile_append_of_pos hspan]
    rfl
  have htake : (line ++ '\n' :: rest).takeWhile (· != '\n') = line := by
    rw [List.takeWhile_append_of_pos hspan]
    simp
  unfold nextLine
  split
  · next h => simp at h
  · rw [hdrop, htake, stripCr, if_neg hcr]

/-- Without white space there is nothing to trim. -/
theorem trim_eq_self {cs : List Char} (h : ∀ c ∈ cs, isWhiteSpace c = false) : trim cs = cs := by
  have hdrop : ∀ cs : List Char, (∀ c ∈ cs, isWhiteSpace c = false) →
      cs.dropWhile isWhiteSpace = cs := by
    intro cs h
    cases cs with
    | nil => rfl
    | cons c cs =>
      exact List.dropWhile_cons_of_neg (by rw [h c List.mem_cons_self]; exact Bool.false_ne_true)
  rw [trim, hdrop cs h, hdrop cs.reverse (fun c hc => h c (List.mem_reverse.mp hc)),
    List.reverse_reverse]

theorem digitChar_spec {n : Nat} (h : n < 16) :
    hexValue (Nat.digitChar n) = some n ∧ isWhiteSpace (Nat.digitChar n) = false ∧
      Nat.digitChar n ≠ '\n' ∧ Nat.digitChar n ≠ '\r' := by
  have hall : ∀ n : Fin 16, hexValue (Nat.digitChar n.val) = some n.val ∧
      isWhiteSpace (Nat.digitChar n.val) = false ∧ Nat.digitChar n.val ≠ '\n' ∧
      Nat.digitChar n.val ≠ '\r' := by decide
  exact hall ⟨n, h⟩

theorem mem_lowerHex {b : UInt8} {c : Char} (h : c ∈ lowerHex b) :
    ∃ n < 16, c = Nat.digitChar n := by
  have hb := b.toNat_lt
  rcases List.mem_cons.mp h with rfl | h
  · exact ⟨_, by omega, rfl⟩
  · exact ⟨_, by omega, List.mem_singleton.mp h⟩

theorem mem_hex {seed : Bytes} {c : Char} (h : c ∈ seed.flatMap lowerHex) :
    ∃ n < 16, c = Nat.digitChar n := by
  obtain ⟨b, -, hc⟩ := List.mem_flatMap.mp h
  exact mem_lowerHex hc

theorem length_hex (seed : Bytes) : (seed.flatMap lowerHex).length = 2 * seed.length := by
  induction seed with
  | nil => rfl
  | cons b seed ih =>
    rw [List.flatMap_cons, List.length_append, ih, List.length_cons]
    show 2 + _ = _
    omega

/-- The digits of a seed have its value. -/
theorem hexNumber_flatMap (seed : Bytes) :
    hexNumber (seed.flatMap lowerHex) = ofBytes seed := by
  have hacc : ∀ acc, (seed.flatMap lowerHex).foldl (fun n c => 16 * n + (hexValue c).getD 0) acc
      = seed.foldl (fun n b => 256 * n + b.toNat) acc := by
    induction seed with
    | nil => exact fun acc => rfl
    | cons b seed ih =>
      intro acc
      have hb := b.toNat_lt
      rw [List.flatMap_cons, List.foldl_append, ih, List.foldl_cons, lowerHex, List.foldl_cons,
        List.foldl_cons, List.foldl_nil, (digitChar_spec (n := b.toNat / 16) (by omega)).1,
        (digitChar_spec (n := b.toNat % 16) (by omega)).1]
      congr 1
      dsimp only [Option.getD_some]
      omega
  exact hacc 0

theorem seedHeader_plain : ∀ c ∈ seedHeader.toList,
    c ≠ '\n' ∧ c ≠ '\r' ∧ isWhiteSpace c = false := by
  have hall : (seedHeader.toList.all fun c =>
      decide (c ≠ '\n' ∧ c ≠ '\r' ∧ isWhiteSpace c = false)) = true := by
    decide +kernel
  exact fun c hc => of_decide_eq_true (List.all_eq_true.mp hall c hc)

/-- The last character is one of those that are there. -/
theorem getLast?_ne {cs : List Char} {c : Char} (h : ∀ x ∈ cs, x ≠ c) : cs.getLast? ≠ some c :=
  fun hlast => h c (List.mem_of_getLast? hlast) rfl

theorem twoLines_saveHostKey (key : HostKey) : twoLines (saveHostKey key).toList
    = (seedHeader.toList, key.signing.val.flatMap lowerHex) := by
  have hhex : ∀ c ∈ key.signing.val.flatMap lowerHex, c ≠ '\n' ∧ c ≠ '\r' := by
    intro c hc
    obtain ⟨n, hn, rfl⟩ := mem_hex hc
    exact (digitChar_spec hn).2.2
  have htext : (saveHostKey key).toList
      = seedHeader.toList ++ '\n' :: (key.signing.val.flatMap lowerHex ++ '\n' :: []) := by
    simp [saveHostKey]
  rw [twoLines, htext,
    nextLine_append (fun c hc => (seedHeader_plain c hc).1)
      (getLast?_ne fun c hc => (seedHeader_plain c hc).2.1)]
  dsimp only [Option.getD_some]
  rw [nextLine_append (fun c hc => (hhex c hc).1) (getLast?_ne fun c hc => (hhex c hc).2)]
  rfl

/-- The text of `save_host_key` is a seed file of its key. -/
theorem isSeedFile_saveHostKey (key : HostKey) : IsSeedFile (saveHostKey key) key := by
  have hfirst : trim (twoLines (saveHostKey key).toList).1 = seedHeader.toList := by
    rw [twoLines_saveHostKey]
    exact trim_eq_self fun c hc => (seedHeader_plain c hc).2.2
  have hsecond : trim (twoLines (saveHostKey key).toList).2
      = key.signing.val.flatMap lowerHex := by
    rw [twoLines_saveHostKey]
    refine trim_eq_self fun c hc => ?_
    obtain ⟨n, hn, rfl⟩ := mem_hex hc
    exact (digitChar_spec hn).2.1
  refine ⟨hfirst, ?_, fun c hc => ?_, ?_⟩
  · rw [hsecond, length_hex, key.signing.property]
  · rw [hsecond] at hc
    obtain ⟨n, hn, rfl⟩ := mem_hex hc
    rw [(digitChar_spec hn).1]
    rfl
  · rw [hsecond, hexNumber_flatMap]

-- ============================================================================
-- What `parse_host_key` accepts
-- ============================================================================

/-- A two-byte slice ends within a character, and every pair before it is
    read. -/
def SplitsCharacter (hex : Bytes) : Prop :=
  ∃ i < 32, isCharBoundary hex (i * 2 + 2) = false ∧ ∀ k < i, ReadsAt hex k

/-- Every pair is read, one of them as a sign and a digit. -/
def ReadsSign (hex : Bytes) : Prop :=
  (∀ i < 32, ReadsAt hex i) ∧ ∃ i < 32, hex.getD (2 * i) 0 = 0x2b

/-- The texts on which `parse_host_key` leaves its grammar: 64 bytes below the
    header that it slices within a character, or in which it reads a sign. -/
def Misread (text : String) : Prop :=
  let hex := strBytes (String.ofList (trim (twoLines text.toList).2))
  trim (twoLines text.toList).1 = seedHeader.toList ∧ hex.length = 64 ∧
    (SplitsCharacter hex ∨ ReadsSign hex)

section

variable {σ : Type} {text : String}

/-- Past the two checks there is the loop over the pairs. -/
theorem parseHostKey_apply (s : σ) :
    parseHostKey text s =
      if trim (twoLines text.toList).1 ≠ seedHeader.toList then
        .err (.protocol "unsupported host key format") s
      else if (strBytes (String.ofList (trim (twoLines text.toList).2))).length ≠ 64 then
        .err (.protocol "bad host key seed") s
      else (seedLoop (strBytes (String.ofList (trim (twoLines text.toList).2))) 32 0 s).bind
        fun seed s => .ok ⟨seed⟩ s := by
  unfold parseHostKey
  dsimp only
  split
  · next hheader =>
    rw [Proc.bind_apply, Proc.failIf_apply, if_pos hheader]
    rfl
  · next hheader =>
    rw [Proc.bind_of_ok (by rw [Proc.failIf_apply, if_neg hheader])]
    split
    · next hlen =>
      rw [Proc.bind_apply, Proc.failIf_apply, if_pos hlen]
      rfl
    · next hlen =>
      rw [Proc.bind_of_ok (by rw [Proc.failIf_apply, if_neg hlen])]
      rfl

/-- Without 64 bytes below the header there is an error, and nothing to read. -/
theorem parseHostKey_other
    (h : ¬ (trim (twoLines text.toList).1 = seedHeader.toList ∧
      (strBytes (String.ofList (trim (twoLines text.toList).2))).length = 64)) (s : σ) :
    ∃ e, parseHostKey text s = .err e s := by
  rw [parseHostKey_apply]
  split
  · exact ⟨_, rfl⟩
  · split
    · exact ⟨_, rfl⟩
    · next hheader hlen =>
      exact absurd ⟨Decidable.not_not.mp hheader, Decidable.not_not.mp hlen⟩ h

/-- A seed file has 64 bytes below its header, all of them digits. -/
theorem IsSeedFile.bytes {key : HostKey} (h : IsSeedFile text key) :
    trim (twoLines text.toList).1 = seedHeader.toList ∧
      (strBytes (String.ofList (trim (twoLines text.toList).2))).length = 64 ∧
      ∀ b ∈ strBytes (String.ofList (trim (twoLines text.toList).2)), (hexDigit b).isSome := by
  obtain ⟨hheader, hlen, hdigits, -⟩ := h
  rw [strBytes_ascii fun c hc => toNat_lt_of_hexValue (hdigits c hc)]
  refine ⟨hheader, by rw [List.length_map]; exact hlen, fun b hb => ?_⟩
  obtain ⟨c, hc, rfl⟩ := List.mem_map.mp hb
  rw [hexDigit_ofNat (toNat_lt_of_hexValue (hdigits c hc))]
  exact hdigits c hc

/-- The number of the digits, by their bytes. -/
theorem foldl_hexDigit {cs : List Char} (h : ∀ c ∈ cs, (hexValue c).isSome) :
    (strBytes (String.ofList cs)).foldl (fun n b => 16 * n + (hexDigit b).getD 0) 0
      = hexNumber cs := by
  rw [strBytes_ascii fun c hc => toNat_lt_of_hexValue (h c hc), hexNumber, List.foldl_map]
  refine List.foldl_ext _ _ _ fun n c hc => ?_
  rw [hexDigit_ofNat (toNat_lt_of_hexValue (h c hc))]

/-- Pairs that are all read, and not within a character, give a seed. -/
theorem parseHostKey_of_readsAt (hheader : trim (twoLines text.toList).1 = seedHeader.toList)
    (hlen : (strBytes (String.ofList (trim (twoLines text.toList).2))).length = 64)
    (hreads : ∀ i < 32, ReadsAt (strBytes (String.ofList (trim (twoLines text.toList).2))) i)
    (hsplit : ¬ SplitsCharacter (strBytes (String.ofList (trim (twoLines text.toList).2))))
    (s : σ) : ∃ seed : Block 32, parseHostKey text s = .ok ⟨seed⟩ s ∧
      Pairs (strBytes (String.ofList (trim (twoLines text.toList).2))) seed.val := by
  obtain ⟨seed, hpairs⟩ := Pairs.exists_of_readsAt (n := 32) hlen hreads
  have hseed : seed.length = 32 := by
    have := hpairs.length_eq
    omega
  -- the first slice that ended within a character would make it split one
  have hcuts : ∀ j < 32, isCharBoundary
      (strBytes (String.ofList (trim (twoLines text.toList).2))) ((0 + j) * 2 + 2) = true := by
    intro j hj
    by_contra hcut
    rw [Bool.not_eq_true, Nat.zero_add] at hcut
    exact hsplit ⟨j, hj, hcut, fun k hk => hreads k (hk.trans hj)⟩
  refine ⟨⟨seed, hseed⟩, ?_, hpairs⟩
  rw [parseHostKey_apply, if_neg (not_not.mpr hheader), if_neg (not_not.mpr hlen),
    (seedLoop_ok rfl (by rw [hlen]) ⟨seed, hseed⟩ s).mpr ⟨hcuts, by simpa using hpairs⟩]
  rfl

theorem readsAt_of_digits {hex : Bytes} (hlen : hex.length = 64)
    (hdigits : ∀ b ∈ hex, (hexDigit b).isSome) : ∀ i < 32, ReadsAt hex i := by
  have hget : ∀ m < 64, (hexDigit (hex.getD m 0)).isSome := by
    intro m hm
    rw [List.getD_eq_getElem hex 0 (by omega)]
    exact hdigits _ (List.getElem_mem _)
  exact fun i hi => ⟨.inl (hget _ (by omega)), hget _ (by omega)⟩

/-- Between digits every offset is a boundary. -/
theorem isCharBoundary_of_digits {hex : Bytes} (hdigits : ∀ b ∈ hex, (hexDigit b).isSome) {i : Nat}
    (hi : i ≤ hex.length) : isCharBoundary hex i = true := by
  unfold isCharBoundary
  split
  · rfl
  · split
    · next hle => exact beq_iff_eq.mpr (Nat.le_antisymm hi hle)
    · next hlt =>
      have hdigit := hdigits _ (List.getElem_mem (Nat.lt_of_not_le hlt))
      rw [List.getD_eq_getElem hex 0 (Nat.lt_of_not_le hlt)]
      have hsmall := toNat_lt_of_hexDigit hdigit
      have hnot : ¬ (0x80 : UInt8) ≤ hex[i] := fun hge => absurd (UInt8.le_iff_toNat_le.mp hge)
        (Nat.not_le.mpr hsmall)
      rw [decide_eq_false hnot]
      rfl

/-- A seed file is read as its key. -/
theorem parseHostKey_of_isSeedFile {key : HostKey} (h : IsSeedFile text key) (s : σ) :
    parseHostKey text s = .ok key s := by
  obtain ⟨hheader, hlen, hdigits⟩ := h.bytes
  have hsplit : ¬ SplitsCharacter (strBytes (String.ofList (trim (twoLines text.toList).2))) := by
    rintro ⟨i, hi, hcut, -⟩
    rw [isCharBoundary_of_digits hdigits (by omega)] at hcut
    cases hcut
  obtain ⟨seed, hrun, hpairs⟩ :=
    parseHostKey_of_readsAt hheader hlen (readsAt_of_digits hlen hdigits) hsplit s
  have hkey : key.signing = seed := by
    apply Subtype.ext
    refine ofBytes_injective (by rw [seed.property, key.signing.property]) ?_
    rw [h.value, hpairs.ofBytes_eq hdigits, foldl_hexDigit h.digits]
  rw [hrun, ← hkey]

/-- Pairs that are read, none of them with a sign, are digits. -/
theorem digits_of_readsAt {hex : Bytes} (hlen : hex.length = 64)
    (hreads : ∀ i < 32, ReadsAt hex i) (hsign : ¬ ReadsSign hex) :
    ∀ b ∈ hex, (hexDigit b).isSome := by
  intro b hb
  obtain ⟨m, hm, rfl⟩ := List.mem_iff_getElem.mp hb
  have hpair := hreads (m / 2) (by omega)
  rw [← List.getD_eq_getElem hex 0 hm]
  rcases Nat.mod_two_eq_zero_or_one m with heven | hodd
  · have hat : 2 * (m / 2) = m := by omega
    rcases hpair.1 with hdigit | hplus
    · rw [hat] at hdigit
      exact hdigit
    · exact absurd ⟨hreads, m / 2, by omega, hplus⟩ hsign
  · have hat : 2 * (m / 2) + 1 = m := by omega
    have hdigit := hpair.2
    rw [hat] at hdigit
    exact hdigit

/-- What is read and not misread is a seed file. -/
theorem isSeedFile_of_parseHostKey {key : HostKey} {s : σ} (h : parseHostKey text s = .ok key s)
    (hmis : ¬ Misread text) : IsSeedFile text key := by
  by_cases hchecks : trim (twoLines text.toList).1 = seedHeader.toList ∧
      (strBytes (String.ofList (trim (twoLines text.toList).2))).length = 64
  · obtain ⟨hheader, hlen⟩ := hchecks
    rw [parseHostKey_apply, if_neg (not_not.mpr hheader), if_neg (not_not.mpr hlen)] at h
    obtain ⟨seed, s1, hrun, heq⟩ := Outcome.of_bind_eq_ok h
    cases heq
    obtain ⟨-, hpairs⟩ := (seedLoop_ok rfl (by rw [hlen]) seed s).mp hrun
    rw [Nat.zero_mul, List.drop_zero] at hpairs
    have hreads := hpairs.readsAt
    rw [seed.property] at hreads
    have hdigits := digits_of_readsAt hlen hreads fun hsign => hmis ⟨hheader, hlen, .inr hsign⟩
    have hchars := digits_of_strBytes hdigits
    refine ⟨hheader, ?_, hchars, ?_⟩
    · rw [strBytes_ascii fun c hc => toNat_lt_of_hexValue (hchars c hc), List.length_map] at hlen
      exact hlen
    · rw [hpairs.ofBytes_eq hdigits, foldl_hexDigit hchars]
  · obtain ⟨e, he⟩ := parseHostKey_other hchecks s
    rw [he] at h
    cases h

/-- Where the text is misread: a panic within a character, or a seed from a
    text that has none. -/
theorem parseHostKey_of_misread (h : Misread text) (s : σ) : parseHostKey text s = .panic ∨
    ∃ key, parseHostKey text s = .ok key s ∧ ¬ IsSeedFile text key := by
  obtain ⟨hheader, hlen, hmis⟩ := h
  by_cases hsplit : SplitsCharacter (strBytes (String.ofList (trim (twoLines text.toList).2)))
  · obtain ⟨i, hi, hcut, hreads⟩ := hsplit
    refine .inl ?_
    rw [parseHostKey_apply, if_neg (not_not.mpr hheader), if_neg (not_not.mpr hlen),
      (seedLoop_panic rfl (by rw [hlen]) s).mpr ⟨i, hi, by rw [Nat.zero_add]; exact hcut,
        fun k hk => by rw [Nat.zero_add]; exact hreads k hk⟩]
    rfl
  · obtain ⟨hreads, i, hi, hplus⟩ := hmis.resolve_left hsplit
    obtain ⟨seed, hrun, -⟩ := parseHostKey_of_readsAt hheader hlen hreads hsplit s
    refine .inr ⟨⟨seed⟩, hrun, fun hfile => ?_⟩
    -- the sign would have to be a digit
    have hdigit := hfile.bytes.2.2 _ (List.getElem_mem (n := 2 * i) (by omega))
    rw [← List.getD_eq_getElem _ 0, hplus, hexDigit_plus] at hdigit
    cases hdigit

/-- A panic needs a character to split. -/
theorem misread_of_panic {s : σ} (h : parseHostKey text s = .panic) : Misread text := by
  by_cases hchecks : trim (twoLines text.toList).1 = seedHeader.toList ∧
      (strBytes (String.ofList (trim (twoLines text.toList).2))).length = 64
  · obtain ⟨hheader, hlen⟩ := hchecks
    rw [parseHostKey_apply, if_neg (not_not.mpr hheader), if_neg (not_not.mpr hlen)] at h
    have hloop : seedLoop (strBytes (String.ofList (trim (twoLines text.toList).2))) 32 0 s
        = .panic := by
      cases hrun : seedLoop (strBytes (String.ofList (trim (twoLines text.toList).2))) 32 0 s with
      | ok seed s1 =>
        rw [hrun] at h
        cases h
      | err e s1 =>
        rw [hrun] at h
        cases h
      | panic => rfl
    obtain ⟨i, hi, hcut, hreads⟩ := (seedLoop_panic rfl (by rw [hlen]) s).mp hloop
    rw [Nat.zero_add] at hcut
    exact ⟨hheader, hlen, .inl ⟨i, hi, hcut, fun k hk => by
      have := hreads k hk
      rw [Nat.zero_add] at this
      exact this⟩⟩
  · obtain ⟨e, he⟩ := parseHostKey_other hchecks s
    rw [he] at h
    cases h

end

/-- `parse_host_key` reads back what `save_host_key` wrote; and on a text it
    does what the grammar says, without a panic, exactly when the 64 bytes are
    neither sliced within a character nor read with a sign. -/
theorem parseHostKey_exact (key : HostKey) (text : String) :
    parseHostKey (saveHostKey key) () = .ok key () ∧
    ((parseHostKey text () ≠ .panic ∧
        ∀ key, parseHostKey text () = .ok key () ↔ IsSeedFile text key) ↔ ¬ Misread text) := by
  refine ⟨parseHostKey_of_isSeedFile (isSeedFile_saveHostKey key) (), ?_, ?_⟩
  · rintro ⟨hpanic, hiff⟩ hmis
    rcases parseHostKey_of_misread hmis () with h | ⟨key, hrun, hnot⟩
    · exact hpanic h
    · exact hnot ((hiff key).mp hrun)
  · intro hmis
    refine ⟨fun hpanic => hmis (misread_of_panic hpanic), fun key => ⟨fun hrun => ?_, fun h => ?_⟩⟩
    · exact isSeedFile_of_parseHostKey hrun hmis
    · exact parseHostKey_of_isSeedFile h ()

/-- A letter with an accent across the end of the first slice. -/
def splitText : String :=
  "ssproxy-ed25519-seed-v1\n" ++
    "0é0000000000000000000000000000000000000000000000000000000000000\n"

/-- A plus sign in place of the first digit. -/
def signText : String :=
  "ssproxy-ed25519-seed-v1\n" ++
    "+100000000000000000000000000000000000000000000000000000000000000\n"

/-- The first text panics, the second is read though it is no seed file. -/
theorem parseHostKey_misreads :
    parseHostKey splitText () = .panic ∧
      ∃ key, parseHostKey signText () = .ok key () ∧ ¬ IsSeedFile signText key := by
  refine ⟨?_, ?_⟩
  · have hnone : (parseHostKey splitText ()).state? = none := by decide +kernel
    cases hrun : parseHostKey splitText () with
    | ok key s =>
      rw [hrun] at hnone
      cases hnone
    | err e s =>
      rw [hrun] at hnone
      cases hnone
    | panic => rfl
  · have hok : (parseHostKey signText ()).passes (fun _ => true) = true := by decide +kernel
    obtain ⟨key, s, hrun, -⟩ := Outcome.exists_of_passes hok
    have hsign : '+' ∈ trim (twoLines signText.toList).2 := by decide +kernel
    refine ⟨key, hrun, fun hfile => ?_⟩
    have hdigit := hfile.digits '+' hsign
    cases hdigit

end Ssproxy
