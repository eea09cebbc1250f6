/-
  Ssproxy.Conn.Run

  Whole runs of one connection: the two constructors, the public calls, and
  the state after a sequence of calls.  A call that returns an error leaves
  the connection in the state it reached, and the run goes on from there.
-/

import Ssproxy.Conn.Input

namespace Ssproxy

open Lib

open Traced (read update observe)

-- ============================================================================
-- Constructors
-- ============================================================================

/-- What a connection is made from. -/
inductive Setup where
  | server (cfg : ServerConfig)
  | client (cfg : ClientConfig)

namespace Setup

def role : Setup → Role
  | server _ => .server
  | client _ => .client

/-- The connection before its constructor starts the first key exchange:
    `Connection::new`, the configuration, and `queue_ident`. -/
def blank (setup : Setup) (rng : Rng) : Connection :=
  match setup with
  | server cfg =>
      { Connection.new .server cfg.ident cfg.writeBufSoft cfg.writeBufHard cfg.rekeyAfterBytes
          cfg.rekeyAfterPackets cfg.maxChannels cfg.window cfg.maxPacket rng with
        server := some cfg
        identOut := some (strBytes cfg.ident ++ [13, 10]) }
  | client cfg =>
      { Connection.new .client cfg.ident cfg.writeBufSoft cfg.writeBufHard cfg.rekeyAfterBytes
          cfg.rekeyAfterPackets 256 cfg.window cfg.maxPacket rng with
        client := some cfg
        identOut := some (strBytes cfg.ident ++ [13, 10]) }

end Setup

-- ============================================================================
-- Calls
-- ============================================================================

/-- The calls that change a connection.  `recv` appends to the buffer that
    `read_buf_mut` returns. -/
inductive Call where
  | recv (bytes : Bytes)
  | processIn
  | peekOut
  | consumeOut (n : Nat)
  | popEvent
  | consumeInbound (id : UInt32) (n : Nat)
  | sendData (id : UInt32) (data : Bytes)
  | sendEof (id : UInt32)
  | sendClose (id : UInt32)
  | confirmOpen (id : UInt32)
  | failOpen (id reason : UInt32) (msg : String)
  | openDirectTcpip (host : String) (port : UInt32)
  | disconnect (reason : UInt32) (msg : String)
  | roundRobinIds
  deriving DecidableEq

variable [CryptoLib]

/-- A call of `send_data`, with its result in the history. -/
def Connection.sendDataNoted (id : UInt32) (data : Bytes) : ConnM Unit := do
  let c ← read
  let n ← Connection.sendData id data
  observe (.accepted c id data n)

/-- Run one call. -/
def Call.run : Call → ConnM Unit
  | recv bytes => update fun c => { c with readBuf := c.readBuf ++ bytes }
  | processIn => Connection.processIn
  | peekOut => do let _ ← Connection.peekOut
  | consumeOut n => Connection.consumeOut n
  | popEvent => update fun c => { c with events := c.events.tail }
  | consumeInbound id n => Connection.consumeInbound id n
  | sendData id data => Connection.sendDataNoted id data
  | sendEof id => Connection.sendEof id
  | sendClose id => Connection.sendClose id
  | confirmOpen id => Connection.confirmOpen id
  | failOpen id reason msg => Connection.failOpen id reason msg
  | openDirectTcpip host port => do let _ ← Connection.openDirectTcpip host port
  | disconnect reason msg => Connection.disconnect reason msg
  | roundRobinIds => do let _ ← Connection.roundRobinIds

/-- Run the calls one after the other, whatever they return. -/
def runCalls (calls : List Call) : ConnM Unit :=
  Proc.forEach (fun call => Proc.ignore call.run) calls

/-- A whole run: the constructor, then the calls. -/
def Setup.run (setup : Setup) (rng : Rng) (calls : List Call) : Outcome Conn Error Unit :=
  (do Proc.ignore Connection.startKex; runCalls calls) ⟨setup.blank rng, []⟩

end Ssproxy
