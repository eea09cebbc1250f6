/-
  Ssproxy.Config

  Server and client configuration (`src/config.rs`), as far as the protocol
  core reads it: the timers and the host-key file belong to the daemon.
-/

import Ssproxy.Crypto

namespace Ssproxy

open Lib

structure User where
  name : String
  password : String
  deriving DecidableEq

structure ServerConfig where
  ident : String
  hostKey : HostKey
  users : List User
  window : UInt32
  maxPacket : UInt32
  maxChannels : UInt32
  maxAuthFails : UInt32
  rekeyAfterBytes : Nat
  rekeyAfterPackets : UInt32
  writeBufSoft : Nat
  writeBufHard : Nat

namespace ServerConfig

def new (hostKey : HostKey) (users : List User) : ServerConfig where
  ident := "SSH-2.0-OpenSSH_9.6"
  hostKey := hostKey
  users := users
  window := 2 * 1024 * 1024
  maxPacket := 32 * 1024
  maxChannels := 256
  maxAuthFails := 3
  rekeyAfterBytes := 1024 * 1024 * 1024
  rekeyAfterPackets := 2 ^ 31 - 1
  writeBufSoft := 256 * 1024
  writeBufHard := 1024 * 1024

/-- `check_password`: every user is compared, on the bytes. -/
def checkPassword (cfg : ServerConfig) (user password : String) : Bool :=
  cfg.users.foldl (fun ok u =>
    ok || (strBytes u.name == strBytes user && strBytes u.password == strBytes password)) false

end ServerConfig

structure ClientConfig where
  ident : String
  username : String
  password : String
  window : UInt32
  maxPacket : UInt32
  writeBufSoft : Nat
  writeBufHard : Nat
  rekeyAfterBytes : Nat
  rekeyAfterPackets : UInt32

def ClientConfig.new (username password : String) : ClientConfig where
  ident := "SSH-2.0-ssproxy_client_0.1"
  username := username
  password := password
  window := 2 * 1024 * 1024
  maxPacket := 32 * 1024
  writeBufSoft := 256 * 1024
  writeBufHard := 1024 * 1024
  rekeyAfterBytes := 1024 * 1024 * 1024
  rekeyAfterPackets := 2 ^ 31 - 1

end Ssproxy
