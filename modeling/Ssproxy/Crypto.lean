/-
  Ssproxy.Crypto

  The packet ciphers, the key derivation and the host key (`src/crypto/`).

  The primitives come from third-party crates and are taken as the parameter
  `CryptoLib`: SHA-256, X25519, the ChaCha20 keystream, Poly1305, AES-GCM and
  Ed25519.  What the repository itself builds from them is spelled out.
-/

import Ssproxy.Proto

namespace Ssproxy

open Lib Wire

/-- The primitives of the third-party crates. -/
class CryptoLib where
  /-- SHA-256. -/
  sha256 : Bytes → Block 32
  /-- X25519 with the base point: `PublicKey::from(&secret)`. -/
  x25519Base : Block 32 → Block 32
  /-- X25519: `secret.diffie_hellman(&public)`. -/
  x25519 : Block 32 → Block 32 → Block 32
  /-- Byte `i` of the ChaCha20 keystream under a key and a 96-bit nonce. -/
  chacha20 : Block 32 → Block 12 → Nat → UInt8
  /-- Poly1305 over the unpadded message. -/
  poly1305 : Block 32 → Bytes → Block 16
  /-- AES-GCM encryption in place under key, nonce and associated data. -/
  aesGcmEncrypt (key : Bytes) (iv : Block 12) (aad buf : Bytes) : Block buf.length × Block 16
  /-- AES-GCM decryption in place; `none` when the tag does not match. -/
  aesGcmDecrypt (key : Bytes) (iv : Block 12) (aad buf : Bytes) (tag : Block 16) :
    Option (Block buf.length)
  /-- Above this many bytes `encrypt_in_place_detached` of AES-GCM refuses. -/
  gcmMaxLen : Nat
  /-- It takes messages of up to 2^36 bytes. -/
  gcmMaxLen_ge : 2 ^ 36 ≤ gcmMaxLen
  /-- The Ed25519 public key of a seed. -/
  ed25519Public : Block 32 → Block 32
  /-- The Ed25519 signature under a seed. -/
  ed25519Sign : Block 32 → Bytes → Block 64

def maxPacket : Nat := 256 * 1024
def tagLen : Nat := 16

-- ============================================================================
-- Cipher kinds
-- ============================================================================

inductive CipherKind where
  | clear | chaCha20Poly1305 | aes128Gcm | aes256Gcm
  deriving DecidableEq, Repr

namespace CipherKind

def fromName (name : String) : Option CipherKind :=
  if name = "chacha20-poly1305@openssh.com" then some chaCha20Poly1305
  else if name = "aes128-gcm@openssh.com" then some aes128Gcm
  else if name = "aes256-gcm@openssh.com" then some aes256Gcm
  else if name = "none" then some clear
  else none

/-- The derived `Debug` text. -/
def debug : CipherKind → String
  | clear => "Clear"
  | chaCha20Poly1305 => "ChaCha20Poly1305"
  | aes128Gcm => "Aes128Gcm"
  | aes256Gcm => "Aes256Gcm"

def keyLen : CipherKind → Nat
  | clear => 0
  | chaCha20Poly1305 => 64
  | aes128Gcm => 16
  | aes256Gcm => 32

def ivLen : CipherKind → Nat
  | clear | chaCha20Poly1305 => 0
  | aes128Gcm | aes256Gcm => 12

def tagLen : CipherKind → Nat
  | clear => 0
  | _ => Ssproxy.tagLen

def blockSize : CipherKind → Nat
  | clear | chaCha20Poly1305 => 8
  | aes128Gcm | aes256Gcm => 16

def isAead : CipherKind → Bool
  | clear => false
  | _ => true

end CipherKind

/-- `padding_len`: align `padlen || payload || padding`, with the length field
    inside the alignment only for cleartext packets. -/
def paddingLen (payloadLen block : Nat) (lengthIsAad : Bool) : Nat :=
  let block := max block 8
  let need := if lengthIsAad then 1 + payloadLen else 4 + 1 + payloadLen
  let pad := block - need % block
  if pad < 4 then pad + block else pad

variable [CryptoLib]

-- ============================================================================
-- chacha20-poly1305@openssh.com
-- ============================================================================

structure ChaCha20Poly1305Ssh where
  payloadKey : Block 32
  lengthKey : Block 32
  deriving DecidableEq

namespace ChaCha20Poly1305Ssh

omit [CryptoLib] in
theorem half_length {key : Block 64} : (key.val.take 32).length = 32 ∧
    (key.val.drop 32).length = 32 := by
  simp [key.property]

/-- The first half of the key is for payloads, the second for lengths. -/
def new (key : Block 64) : ChaCha20Poly1305Ssh where
  payloadKey := ⟨key.val.take 32, half_length.1⟩
  lengthKey := ⟨key.val.drop 32, half_length.2⟩

def nonce (seq : UInt32) : Block 12 := ⟨List.replicate 8 0 ++ beBytes seq, rfl⟩

/-- `apply_keystream`, starting at keystream byte `start`. -/
def applyKeystream (key : Block 32) (seq : UInt32) (start : Nat) (data : Bytes) : Bytes :=
  data.mapIdx fun i b => b ^^^ CryptoLib.chacha20 key (nonce seq) (start + i)

def decryptLength (c : ChaCha20Poly1305Ssh) (seq : UInt32) (enc : Bytes) : Bytes :=
  applyKeystream c.lengthKey seq 0 enc

/-- The first half of keystream block 0. -/
def polyKey (c : ChaCha20Poly1305Ssh) (seq : UInt32) : Block 32 :=
  ⟨(List.range 32).map (CryptoLib.chacha20 c.payloadKey (nonce seq)), by simp⟩

/-- The payload keystream starts after block 0. -/
def applyPayload (c : ChaCha20Poly1305Ssh) (seq : UInt32) (data : Bytes) : Bytes :=
  applyKeystream c.payloadKey seq 64 data

/-- `seal`: the sealed buffer and the contents of `tag_out`. -/
def sealBuf (c : ChaCha20Poly1305Ssh) (seq : UInt32) (buf tagOut : Bytes) :
    Except Error (Bytes × Bytes) :=
  if buf.length < 4 ∨ tagOut.length < tagLen then .error (.crypto "chacha seal buf")
  else
    let sealed := decryptLength c seq (buf.take 4) ++ applyPayload c seq (buf.drop 4)
    let tag := CryptoLib.poly1305 (polyKey c seq) sealed
    .ok (sealed, tag.val ++ tagOut.drop tagLen)

def openBuf (c : ChaCha20Poly1305Ssh) (seq : UInt32) (buf tag : Bytes) : Except Error Bytes :=
  if buf.length < 4 ∨ tag.length ≠ tagLen then .error (.crypto "chacha open buf")
  else if (CryptoLib.poly1305 (polyKey c seq) buf).val ≠ tag then .error (.crypto "chacha tag")
  else .ok (decryptLength c seq (buf.take 4) ++ applyPayload c seq (buf.drop 4))

end ChaCha20Poly1305Ssh

-- ============================================================================
-- aes128-gcm@openssh.com, aes256-gcm@openssh.com
-- ============================================================================

/-- The AES key, by its length. -/
inductive Inner where
  | aes128 (key : Block 16)
  | aes256 (key : Block 32)
  deriving DecidableEq

def Inner.key : Inner → Bytes
  | aes128 k => k.val
  | aes256 k => k.val

def Inner.kind : Inner → CipherKind
  | aes128 _ => .aes128Gcm
  | aes256 _ => .aes256Gcm

structure AesGcmSsh where
  kind : CipherKind
  inner : Inner
  iv : Block 12
  kind_eq : kind = inner.kind
  deriving DecidableEq

namespace AesGcmSsh

omit [CryptoLib] in
theorem length_set {iv : Block 12} (i : Nat) (b : UInt8) : (iv.val.set i b).length = 12 := by
  simp [iv.property]

/-- The loop of `inc_iv` over the given byte positions. -/
def incAt : List Nat → Block 12 → Block 12
  | [], iv => iv
  | i :: is, iv =>
      let b := iv.val.getD i 0 + 1
      let iv' : Block 12 := ⟨iv.val.set i b, length_set i b⟩
      if b ≠ 0 then iv' else incAt is iv'

/-- `inc_iv`: positions 11 down to 4, as long as there is a carry. -/
def incIv (a : AesGcmSsh) : AesGcmSsh :=
  { a with iv := incAt [11, 10, 9, 8, 7, 6, 5, 4] a.iv }

def new (kind : CipherKind) (key iv : Bytes) : Except Error AesGcmSsh :=
  match Block.ofBytes? 12 iv with
  | none => .error (.crypto "aes-gcm iv")
  | some iv =>
      match kind with
      | .aes128Gcm =>
          match Block.ofBytes? 16 key with
          | none => .error (.crypto "aes128 key")
          | some k => .ok ⟨.aes128Gcm, .aes128 k, iv, rfl⟩
      | .aes256Gcm =>
          match Block.ofBytes? 32 key with
          | none => .error (.crypto "aes256 key")
          | some k => .ok ⟨.aes256Gcm, .aes256 k, iv, rfl⟩
      | _ => .error (.crypto "not aes-gcm")

/-- `seal`: the advanced cipher, the sealed buffer and `tag_out`. -/
def sealBuf (a : AesGcmSsh) (buf tagOut : Bytes) : Except Error (AesGcmSsh × Bytes × Bytes) :=
  if buf.length < 4 ∨ tagOut.length < 16 then .error (.crypto "gcm seal buf")
  else if (buf.drop 4).length > CryptoLib.gcmMaxLen then .error (.crypto "gcm seal")
  else
    let r := CryptoLib.aesGcmEncrypt a.inner.key a.iv (buf.take 4) (buf.drop 4)
    .ok (a.incIv, buf.take 4 ++ r.1.val, r.2.val ++ tagOut.drop 16)

def openBuf (a : AesGcmSsh) (buf tag : Bytes) : Except Error (AesGcmSsh × Bytes) :=
  if buf.length < 4 then .error (.crypto "gcm open buf")
  else
    match Block.ofBytes? 16 tag with
    | none => .error (.crypto "gcm open buf")
    | some tag =>
        match CryptoLib.aesGcmDecrypt a.inner.key a.iv (buf.take 4) (buf.drop 4) tag with
        | none => .error (.crypto "gcm tag")
        | some body => .ok (a.incIv, buf.take 4 ++ body.val)

end AesGcmSsh

-- ============================================================================
-- The keys of one direction
-- ============================================================================

inductive DirectionKeys where
  | clear
  | chaCha (c : ChaCha20Poly1305Ssh)
  | aes (a : AesGcmSsh)
  deriving DecidableEq

namespace DirectionKeys

def fromMaterial (kind : CipherKind) (key iv : Bytes) : Except Error DirectionKeys :=
  match kind with
  | .clear => .ok .clear
  | .chaCha20Poly1305 =>
      match Block.ofBytes? 64 key with
      | none => .error (.crypto "chacha key len")
      | some k => .ok (.chaCha (.new k))
  | .aes128Gcm | .aes256Gcm => (AesGcmSsh.new kind key iv).map .aes

def kind : DirectionKeys → CipherKind
  | clear => .clear
  | chaCha _ => .chaCha20Poly1305
  | aes a => a.kind

def decryptLength (keys : DirectionKeys) (seq : UInt32) (enc : Bytes) : Bytes :=
  match keys with
  | clear | aes _ => enc
  | chaCha c => c.decryptLength seq enc

/-- `open`: the cipher afterwards and the decrypted buffer. -/
def openBuf (keys : DirectionKeys) (seq : UInt32) (buf tag : Bytes) :
    Except Error (DirectionKeys × Bytes) :=
  match keys with
  | clear => if tag ≠ [] then .error (.crypto "unexpected tag") else .ok (clear, buf)
  | chaCha c => (c.openBuf seq buf tag).map fun b => (chaCha c, b)
  | aes a => (a.openBuf buf tag).map fun r => (aes r.1, r.2)

/-- `seal`: the cipher afterwards, the sealed buffer and `tag_out`. -/
def sealBuf (keys : DirectionKeys) (seq : UInt32) (buf tagOut : Bytes) :
    Except Error (DirectionKeys × Bytes × Bytes) :=
  match keys with
  | clear => .ok (clear, buf, tagOut)
  | chaCha c => (c.sealBuf seq buf tagOut).map fun r => (chaCha c, r.1, r.2)
  | aes a => (a.sealBuf buf tagOut).map fun r => (aes r.1, r.2.1, r.2.2)

end DirectionKeys

-- ============================================================================
-- Key derivation and the host key
-- ============================================================================

/-- The extension loop of `derive_block`: each round hashes the key so far. -/
def extendKey (kMpint h : Bytes) (outLen : Nat) : Nat → Bytes → Bytes
  | 0, key => key
  | fuel + 1, key =>
      if key.length < outLen then
        extendKey kMpint h outLen fuel (key ++ (CryptoLib.sha256 (kMpint ++ h ++ key)).val)
      else key

/-- `derive_block` into a buffer of length `outLen`.  Each round of its loop
    adds 32 bytes, so `outLen` rounds are more than enough. -/
def deriveBlock {σ : Type} (kMpint h sessionId : Bytes) (letter : UInt8) (outLen : Nat) :
    Proc σ Error Bytes :=
  let key := (CryptoLib.sha256 (kMpint ++ h ++ [letter] ++ sessionId)).val
  Proc.slice (extendKey kMpint h outLen outLen key) 0 outLen

structure HostKey where
  signing : Block 32
  deriving DecidableEq

namespace HostKey

def publicBytes (k : HostKey) : Block 32 := CryptoLib.ed25519Public k.signing

def publicBlob (k : HostKey) : Bytes := putStr "ssh-ed25519" ++ putBytes k.publicBytes.val

def sign (k : HostKey) (data : Bytes) : Bytes :=
  putStr "ssh-ed25519" ++ putBytes (CryptoLib.ed25519Sign k.signing data).val

end HostKey

end Ssproxy
