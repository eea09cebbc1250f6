/-
  Ssproxy.Wire

  The wire layer (`src/wire.rs`) and the error type (`src/error.rs`): the
  `put_*` encoders, and the `Parser` that walks a payload.

  The encoders append to a buffer in the source; here each is the byte string
  it appends.  The parser is a procedure over its own buffer and offset, and
  every slice it takes is a checked one.
-/

import Ssproxy.Lib.Proc
import Ssproxy.Lib.Bytes
import Mathlib.Tactic.Common

namespace Ssproxy

open Lib

/-- The errors of `src/error.rs` that the protocol core can return. -/
inductive Error where
  | protocol (msg : String)
  | protocolFmt (msg : String)
  | crypto (msg : String)
  | auth
  deriving DecidableEq, Repr

-- ============================================================================
-- Encoders
-- ============================================================================

namespace Wire

def putU32 (v : UInt32) : Bytes := beBytes v

def putBool (v : Bool) : Bytes := [if v then 1 else 0]

/-- The length is written `as u32`: it wraps at `2^32`. -/
def putBytes (s : Bytes) : Bytes := putU32 (UInt32.ofNat s.length) ++ s

def putStr (s : String) : Bytes := putBytes (strBytes s)

def putNamelist (names : List String) : Bytes := putStr (",".intercalate names)

/-- `encode_mpint`: strip leading zeros, then put one back if the top bit is set. -/
def encodeMpint (bytes : Bytes) : Bytes :=
  match bytes.dropWhile (· == 0) with
  | [] => putU32 1 ++ [0]
  | b :: rest =>
      if b &&& 0x80 != 0 then
        putU32 (UInt32.ofNat ((b :: rest).length + 1)) ++ 0 :: b :: rest
      else putU32 (UInt32.ofNat (b :: rest).length) ++ b :: rest

@[simp] theorem length_putU32 (v : UInt32) : (putU32 v).length = 4 := rfl

@[simp] theorem length_putBytes (s : Bytes) : (putBytes s).length = 4 + s.length := by
  simp [putBytes]

end Wire

-- ============================================================================
-- The parser
-- ============================================================================

structure Parser where
  buf : Bytes
  off : Nat

namespace Parser

def new (buf : Bytes) : Parser := ⟨buf, 0⟩

/-- The bytes not yet read. -/
def rest (p : Parser) : Bytes := p.buf.drop p.off

def u8 : Proc Parser Error UInt8 := do
  let p ← Proc.get
  if p.off ≥ p.buf.length then Proc.throw (.protocol "truncated u8")
  else do
    let v ← Proc.index p.buf p.off
    Proc.modify fun p => { p with off := p.off + 1 }
    return v

def u32 : Proc Parser Error UInt32 := do
  let p ← Proc.get
  if p.off + 4 > p.buf.length then Proc.throw (.protocol "truncated u32")
  else do
    let b ← Proc.slice p.buf p.off (p.off + 4)
    match b with
    | [b0, b1, b2, b3] => do
        Proc.modify fun p => { p with off := p.off + 4 }
        return ofBe b0 b1 b2 b3
    | _ => Proc.abort

def bool : Proc Parser Error Bool := do
  let b ← u8
  return b != 0

/-- `take(n)`, with the error text of its caller. -/
def takeOr (n : Nat) (msg : String) : Proc Parser Error Bytes := do
  let p ← Proc.get
  if p.off + n > p.buf.length then Proc.throw (.protocol msg)
  else do
    let s ← Proc.slice p.buf p.off (p.off + n)
    Proc.modify fun p => { p with off := p.off + n }
    return s

def bytes : Proc Parser Error Bytes := do
  let n ← u32
  takeOr n.toNat "truncated string"

def str : Proc Parser Error String := do
  let b ← bytes
  Proc.okOr (fromUtf8 b) (.protocol "non-utf8 string")

/-- `s.split(',')`, with no name at all in the empty string. -/
def splitNamelist (s : String) : List String :=
  if s = "" then [] else (s.toList.splitOn ',').map String.ofList

def namelist : Proc Parser Error (List String) := do
  let s ← str
  return splitNamelist s

def take (n : Nat) : Proc Parser Error Bytes := takeOr n "truncated take"

end Parser

end Ssproxy
