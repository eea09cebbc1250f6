/-
  Ssproxy.Proto

  Message numbers and algorithm names (`src/proto/mod.rs`), the KEXINIT
  message and name-list negotiation (`src/proto/msg.rs`).
-/

import Ssproxy.Wire

namespace Ssproxy

open Lib Wire

-- ============================================================================
-- Message numbers
-- ============================================================================

/-- The messages `handle_payload` knows. -/
inductive MsgType where
  | disconnect | ignore | unimplemented | debug | serviceRequest | serviceAccept | extInfo
  | kexinit | newkeys | kexEcdhInit | kexEcdhReply
  | userauthRequest | userauthFailure | userauthSuccess | userauthBanner
  | globalRequest | requestSuccess | requestFailure
  | channelOpen | channelOpenConfirmation | channelOpenFailure | channelWindowAdjust
  | channelData | channelExtendedData | channelEof | channelClose
  | channelRequest | channelSuccess | channelFailure
  | ping | pong
  deriving DecidableEq, Repr

namespace MsgType

/-- The `SSH_MSG_*` constants. -/
def code : MsgType → UInt8
  | disconnect => 1
  | ignore => 2
  | unimplemented => 3
  | debug => 4
  | serviceRequest => 5
  | serviceAccept => 6
  | extInfo => 7
  | kexinit => 20
  | newkeys => 21
  | kexEcdhInit => 30
  | kexEcdhReply => 31
  | userauthRequest => 50
  | userauthFailure => 51
  | userauthSuccess => 52
  | userauthBanner => 53
  | globalRequest => 80
  | requestSuccess => 81
  | requestFailure => 82
  | channelOpen => 90
  | channelOpenConfirmation => 91
  | channelOpenFailure => 92
  | channelWindowAdjust => 93
  | channelData => 94
  | channelExtendedData => 95
  | channelEof => 96
  | channelClose => 97
  | channelRequest => 98
  | channelSuccess => 99
  | channelFailure => 100
  | ping => 192
  | pong => 193

def all : List MsgType :=
  [disconnect, ignore, unimplemented, debug, serviceRequest, serviceAccept, extInfo,
   kexinit, newkeys, kexEcdhInit, kexEcdhReply,
   userauthRequest, userauthFailure, userauthSuccess, userauthBanner,
   globalRequest, requestSuccess, requestFailure,
   channelOpen, channelOpenConfirmation, channelOpenFailure, channelWindowAdjust,
   channelData, channelExtendedData, channelEof, channelClose,
   channelRequest, channelSuccess, channelFailure, ping, pong]

/-- The message a first payload byte stands for, if it is a known one. -/
def ofCode (t : UInt8) : Option MsgType := all.find? (·.code == t)

@[simp] theorem ofCode_code (m : MsgType) : ofCode m.code = some m := by
  cases m <;> rfl

theorem code_of_ofCode {t : UInt8} {m : MsgType} (h : ofCode t = some m) : t = m.code := by
  have := List.find?_some h
  exact (beq_iff_eq.mp this).symm

theorem code_injective {m m' : MsgType} (h : m.code = m'.code) : m = m' := by
  have hm := ofCode_code m
  rw [h, ofCode_code] at hm
  exact (Option.some.inj hm).symm

end MsgType

/-- `is_kex_msg`. -/
def isKexMsg (t : UInt8) : Bool :=
  t == MsgType.kexinit.code || t == MsgType.newkeys.code || (30 ≤ t && t ≤ 49)

/-- `is_transport_ignore`. -/
def isTransportIgnore (t : UInt8) : Bool :=
  t == MsgType.ignore.code || t == MsgType.debug.code || t == MsgType.unimplemented.code

def sshDisconnectNoMoreAuthMethodsAvailable : UInt32 := 14
def sshOpenUnknownChannelType : UInt32 := 3

-- ============================================================================
-- Algorithm names
-- ============================================================================

def kexStrictC : String := "kex-strict-c-v00@openssh.com"
def kexStrictS : String := "kex-strict-s-v00@openssh.com"
def extInfoC : String := "ext-info-c"
def extInfoS : String := "ext-info-s"

def serverKex : List String :=
  ["curve25519-sha256", "curve25519-sha256@libssh.org", extInfoS, kexStrictS]

def serverHostKey : List String := ["ssh-ed25519"]

def serverCiphers : List String :=
  ["chacha20-poly1305@openssh.com", "aes256-gcm@openssh.com", "aes128-gcm@openssh.com"]

def serverMacs : List String := ["hmac-sha2-256", "hmac-sha2-512"]

def serverComp : List String := ["none"]

def clientKex : List String :=
  ["curve25519-sha256", "curve25519-sha256@libssh.org", extInfoC, kexStrictC]

-- ============================================================================
-- KEXINIT
-- ============================================================================

structure KexInit where
  cookie : Block 16
  kex : List String
  hostKey : List String
  encC2s : List String
  encS2c : List String
  macC2s : List String
  macS2c : List String
  compC2s : List String
  compS2c : List String
  langC2s : List String
  langS2c : List String
  firstKexPacketFollows : Bool
  /-- The full payload, with the message byte (it enters the exchange hash). -/
  raw : Bytes
  deriving DecidableEq

namespace KexInit

/-- `KexInit::build`; the cookie comes from the caller's random source. -/
def build (cookie : Block 16) (kex host ciphers macs : List String) : KexInit where
  cookie := cookie
  kex := kex
  hostKey := host
  encC2s := ciphers
  encS2c := ciphers
  macC2s := macs
  macS2c := macs
  compC2s := ["none"]
  compS2c := ["none"]
  langC2s := []
  langS2c := []
  firstKexPacketFollows := false
  raw := MsgType.kexinit.code :: (cookie.val
    ++ putNamelist kex ++ putNamelist host
    ++ putNamelist ciphers ++ putNamelist ciphers
    ++ putNamelist macs ++ putNamelist macs
    ++ putNamelist serverComp ++ putNamelist serverComp
    ++ putNamelist [] ++ putNamelist []
    ++ putBool false ++ putU32 0)

/-- The body of `KexInit::parse`, over its parser. -/
def parseBody (payload : Bytes) : Proc Parser Error KexInit := do
  let t ← Parser.u8
  if t != MsgType.kexinit.code then Proc.throw (.protocol "not kexinit")
  else do
    let cookie ← Parser.take 16
    let cookie ← Proc.unwrap (Block.ofBytes? 16 cookie)
    let kex ← Parser.namelist
    let hostKey ← Parser.namelist
    let encC2s ← Parser.namelist
    let encS2c ← Parser.namelist
    let macC2s ← Parser.namelist
    let macS2c ← Parser.namelist
    let compC2s ← Parser.namelist
    let compS2c ← Parser.namelist
    let langC2s ← Parser.namelist
    let langS2c ← Parser.namelist
    let follows ← Parser.bool
    return { cookie, kex, hostKey, encC2s, encS2c, macC2s, macS2c, compC2s, compS2c,
             langC2s, langS2c, firstKexPacketFollows := follows, raw := payload }

def parse {σ : Type} (payload : Bytes) : Proc σ Error KexInit := do
  let (k, _) ← Proc.call (parseBody payload) (Parser.new payload)
  return k

end KexInit

-- ============================================================================
-- Negotiation
-- ============================================================================

/-- The markers that travel in the kex list but name no algorithm. -/
def isExtMarker (s : String) : Bool :=
  s == extInfoC || s == extInfoS || s == kexStrictC || s == kexStrictS

/-- `negotiate`: the first of our names that the peer lists too. -/
def negotiate (server client : List String) (skipExt : Bool) : Option String :=
  server.find? fun s => !(skipExt && isExtMarker s) && client.contains s

def listHas (list : List String) (name : String) : Bool := list.contains name

end Ssproxy
