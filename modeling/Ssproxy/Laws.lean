/-
  Ssproxy.Laws

  What the results about two parties take from the third-party primitives, and
  a small library that obeys it.  `Toy.lib` stands in wherever a run on concrete
  bytes is computed; the peer in such a run speaks through `Toy.clearPacket`.
-/

import Ssproxy.Conn.Run

namespace Ssproxy

open Lib Wire

/-- The documented behaviour of the primitives: both ends of an X25519 exchange
    compute the same secret, and AES-GCM opens what it sealed. -/
class CryptoLaws [CryptoLib] : Prop where
  x25519_comm (a b : Block 32) :
    CryptoLib.x25519 a (CryptoLib.x25519Base b) = CryptoLib.x25519 b (CryptoLib.x25519Base a)
  aesGcm_open (key : Bytes) (iv : Block 12) (aad buf : Bytes) :
    (CryptoLib.aesGcmDecrypt key iv aad (CryptoLib.aesGcmEncrypt key iv aad buf).1.val
      (CryptoLib.aesGcmEncrypt key iv aad buf).2).map Subtype.val = some buf

-- ============================================================================
-- Runs on concrete bytes
-- ============================================================================

namespace Obs

/-- A message was queued of which `f` holds. -/
def someQueued (f : Connection → Option UInt32 → Bytes → Bool) : Obs → Bool
  | queued before owner payload _ => f before owner payload
  | _ => false

/-- The slot `id` was emptied. -/
def frees (id : UInt32) : Obs → Bool
  | freed i => i = id
  | _ => false

/-- If a packet was handled, then `f` holds of it. -/
def everyHandled (f : Connection → Bytes → Bool) : Obs → Bool
  | handled before payload => f before payload
  | _ => true

/-- If a stream was ended, then `f` holds of it. -/
def everyEnded (f : Connection → UInt32 → Bool) : Obs → Bool
  | ended before id _ => f before id
  | _ => true

/-- If a call of `send_data` returned, then `f` holds of the state before. -/
def everyAccepted (f : Connection → Bool) : Obs → Bool
  | accepted before _ _ _ => f before
  | _ => true

end Obs

namespace Toy

/-- Primitives that obey the laws and hide nothing. -/
@[reducible] def lib : CryptoLib where
  sha256 _ := .zero 32
  x25519Base s := s
  x25519 s p := ⟨List.zipWith (· ^^^ ·) s.val p.val, by simp [s.property, p.property]⟩
  chacha20 _ _ _ := 0
  poly1305 _ _ := .zero 16
  aesGcmEncrypt _ _ _ buf := (⟨buf, rfl⟩, .zero 16)
  aesGcmDecrypt _ _ _ buf tag := if tag = .zero 16 then some ⟨buf, rfl⟩ else none
  gcmMaxLen := 2 ^ 36
  gcmMaxLen_ge := Nat.le_refl _
  ed25519Public s := s
  ed25519Sign _ _ := .zero 64

theorem laws : @CryptoLaws lib := by
  refine @CryptoLaws.mk lib ?_ ?_
  · intro a b
    apply Subtype.ext
    exact List.zipWith_comm_of_comm fun x y => UInt8.xor_comm x y
  · intro key iv aad buf
    rfl

/-- A random source that counts up from one. -/
def rng : Rng := ⟨fun i => UInt8.ofNat (i + 1), 0⟩

/-- One user, and the host key of all zeros. -/
def server : ServerConfig := .new ⟨.zero 32⟩ [⟨"proxy", "secret"⟩]

def client : ClientConfig := .new "proxy" "secret"

/-- The public key of the peer. -/
def point : Block 32 := ⟨List.replicate 32 7, rfl⟩

/-- The ident line of the peer. -/
def identLine : Bytes := strBytes "SSH-2.0-x\r\n"

/-- `payload` in a packet without encryption, padded with zeros. -/
def clearPacket (payload : Bytes) : Bytes :=
  let pad := paddingLen payload.length 8 false
  beBytes (UInt32.ofNat (1 + payload.length + pad)) ++ [UInt8.ofNat pad] ++ payload
    ++ List.replicate pad 0

/-- `payload` in a packet under any key of `lib` for chacha20-poly1305. -/
def sealedPacket (payload : Bytes) : Bytes :=
  let pad := paddingLen payload.length 8 true
  beBytes (UInt32.ofNat (1 + payload.length + pad)) ++ [UInt8.ofNat pad] ++ payload
    ++ List.replicate pad 0 ++ List.replicate 16 0

/-- A KEXINIT of the peer with the given names. -/
def kexinit (kex ciphers : List String) : Bytes :=
  (KexInit.build (.zero 16) kex serverHostKey ciphers serverMacs).raw

end Toy

end Ssproxy
