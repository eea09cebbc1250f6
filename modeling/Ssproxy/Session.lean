/-
  Ssproxy.Session

  The session of the daemon (`src/server/session.rs`): one connection, the
  sockets of its channels' targets, and the loop of `poll` over them.

  - `World` is what the sockets, the connects and the clock answer, poll by
    poll; a list that is used up answers `Pending`.
  - The history of a session records its calls on the connection, its writes
    to the map of targets, the bytes it moved and the connects it resolved.
    Nothing the source computes depends on it.
-/

import Ssproxy.Conn.Run

namespace Ssproxy

open Lib

open Traced (read update observe)

-- ============================================================================
-- The environment
-- ============================================================================

/-- The result of `poll_write`: how many bytes the socket would take. -/
inductive PollWrite where
  | ready (n : Nat)
  | wouldBlock
  | failed
  | pending
  deriving DecidableEq, Repr

/-- It takes no more than it was given. -/
def PollWrite.upTo (len : Nat) : PollWrite → PollWrite
  | ready n => ready (min n len)
  | other => other

/-- The result of `poll_read`: the bytes on offer, of which the buffer takes
    what it has room for. -/
inductive PollRead where
  | ready (bytes : Bytes)
  | wouldBlock
  | failed
  | pending
  deriving DecidableEq, Repr

/-- The result of polling a connect. -/
inductive PollConnect where
  | ready
  | failed (msg : String)
  | pending
  deriving DecidableEq, Repr

/-- A target: a connect with its deadline, or a stream with its flags. -/
inductive Dest where
  | connecting (host : String) (port : UInt16) (deadline : Nat)
  | up (writeShutdown readEof : Bool)
  deriving DecidableEq, Repr

/-- The map of targets, in the order in which it is iterated. -/
abbrev Dests := List (UInt32 × Dest)

namespace Dests

def get? (ds : Dests) (id : UInt32) : Option Dest := ds.lookup id

def remove (ds : Dests) (id : UInt32) : Dests := ds.filter fun p => p.1 != id

def insert (ds : Dests) (id : UInt32) (d : Dest) : Dests := ds.remove id ++ [(id, d)]

/-- The write through `get_mut`. -/
def set (ds : Dests) (id : UInt32) (d : Dest) : Dests :=
  ds.map fun p => if p.1 = id then (id, d) else p

end Dests

/-- What the environment answers from now on.  The map of targets is hashed,
    so `order` is any reordering of it. -/
structure World where
  sshWrites : List PollWrite
  sshReads : List PollRead
  clock : UInt32 → List Nat
  connects : UInt32 → List PollConnect
  destWrites : UInt32 → List PollWrite
  destReads : UInt32 → List PollRead
  order : (ds : Dests) → { ds' : Dests // ds'.Perm ds }

/-- The answers for target `id` go on behind the first one. -/
def dropFirst {α : Type} (answers : UInt32 → List α) (id : UInt32) : UInt32 → List α :=
  fun j => if j = id then (answers j).tail else answers j

-- ============================================================================
-- State and history
-- ============================================================================

/-- `Session`; of its configuration the two fields that `session.rs` reads. -/
structure Session where
  conn : Conn
  dests : Dests
  maxPacket : UInt32
  connectTimeout : Nat

/-- A session and the world it runs in. -/
structure Site where
  session : Session
  world : World

inductive SessionError where
  | closed
  | io
  | core (e : Error)
  deriving DecidableEq, Repr

/-- What the history of a session records. -/
inductive Deed where
  /-- A call on the connection, with the connection before and after. -/
  | called (before after : Connection)
  /-- The entry of target `id` was written or removed. -/
  | entry (id : UInt32) (before after : Option Dest)
  /-- `n` bytes went from a socket to the connection or the other way. -/
  | moved (n : Nat)
  /-- The connect of target `id` succeeded, failed or timed out. -/
  | resolved (id : UInt32)

/-- A session in its world, with its history. -/
abbrev Host := Traced Site Deed

abbrev SessionM (α : Type) := Proc Host SessionError α

namespace Session

/-- A call on the connection; its error ends the poll. -/
def onConn {α : Type} (m : ConnM α) : SessionM α := fun s =>
  let conn := s.now.session.conn
  let next (c : Conn) : Host :=
    ⟨{ s.now with session := { s.now.session with conn := c } }, s.log ++ [.called conn.now c.now]⟩
  match m conn with
  | .ok a c => .ok a (next c)
  | .err e c => .err (.core e) (next c)
  | .panic => .panic

/-- Replace the map of targets, on behalf of target `id`. -/
def putDests (id : UInt32) (f : Dests → Dests) : SessionM Unit := do
  let s ← read
  update fun s => { s with session := { s.session with dests := f s.session.dests } }
  observe (.entry id (s.session.dests.get? id) ((f s.session.dests).get? id))

def removeDest (id : UInt32) : SessionM Unit := putDests id fun ds => ds.remove id

def insertDest (id : UInt32) (d : Dest) : SessionM Unit := putDests id fun ds => ds.insert id d

def setDest (id : UInt32) (d : Dest) : SessionM Unit := putDests id fun ds => ds.set id d

-- ============================================================================
-- Asking the environment
-- ============================================================================

def askSshWrite : SessionM PollWrite := do
  let s ← read
  update fun s => { s with world := { s.world with sshWrites := s.world.sshWrites.tail } }
  return s.world.sshWrites.headD .pending

def askSshRead : SessionM PollRead := do
  let s ← read
  update fun s => { s with world := { s.world with sshReads := s.world.sshReads.tail } }
  return s.world.sshReads.headD .pending

/-- `Instant::now()`, read on behalf of target `id`. -/
def askClock (id : UInt32) : SessionM Nat := do
  let s ← read
  update fun s => { s with world := { s.world with clock := dropFirst s.world.clock id } }
  return (s.world.clock id).headD 0

def askConnect (id : UInt32) : SessionM PollConnect := do
  let s ← read
  update fun s => { s with world := { s.world with connects := dropFirst s.world.connects id } }
  return (s.world.connects id).headD .pending

def askDestWrite (id : UInt32) : SessionM PollWrite := do
  let s ← read
  update fun s => { s with world := { s.world with destWrites := dropFirst s.world.destWrites id } }
  return (s.world.destWrites id).headD .pending

def askDestRead (id : UInt32) : SessionM PollRead := do
  let s ← read
  update fun s => { s with world := { s.world with destReads := dropFirst s.world.destReads id } }
  return (s.world.destReads id).headD .pending

end Session

-- ============================================================================
-- What the session asks the connection
-- ============================================================================

namespace Connection

def isFinished (c : Connection) : Bool := c.closed && !c.wantsWrite

def channelKind (c : Connection) (id : UInt32) : Option ChannelKind :=
  (c.channels.get? id).map Channel.kind

def channelGotEof (c : Connection) (id : UInt32) : Bool :=
  ((c.channels.get? id).map Channel.gotEof).getD true

def channelAlive (c : Connection) (id : UInt32) : Bool := (c.channels.get? id).isSome

/-- `pop_event`. -/
def popEvent : ConnM (Option Event) := do
  let c ← read
  update fun c => { c with events := c.events.tail }
  return c.events.head?

/-- `send_data`, noted in the history of the connection. -/
def sendDataCounted [CryptoLib] (id : UInt32) (data : Bytes) : ConnM Nat := do
  let c ← read
  let n ← sendData id data
  observe (.accepted c id data n)
  return n

end Connection

namespace Session

variable [CryptoLib]

-- ============================================================================
-- Events
-- ============================================================================

/-- `start_connect`. -/
def startConnect (id : UInt32) (host : String) (port : UInt16) : SessionM Unit := do
  let now ← askClock id
  let s ← read
  insertDest id (.connecting host port (now + s.session.connectTimeout))

/-- One round of the loop of `handle_events`. -/
def handleEvent : Event → SessionM Unit
  | .handshakeComplete _ => return ()
  | .openSession id => onConn (Connection.confirmOpen id)
  | .openDirectTcpIp id host port => startConnect id host (UInt16.ofNat port.toNat)
  | .channelEof id => do
      let s ← read
      match s.session.dests.get? id with
      | some (.up _ readEof) => setDest id (.up true readEof)
      | _ => return ()
  | .channelClose id => removeDest id
  | .disconnect _ _ => return ()
  | .channelData _ | .channelOpenConfirmation _ | .channelOpenFailure _ _ _ => return ()

/-- `while let Some(ev) = self.conn.pop_event()`.  No handler adds an event, so
    there are as many rounds as events, and one more that finds none. -/
def eventLoop : Nat → SessionM Unit
  | 0 => return ()
  | fuel + 1 => do
      match ← onConn Connection.popEvent with
      | none => return ()
      | some ev => do
          handleEvent ev
          eventLoop fuel

/-- `handle_events`. -/
def handleEvents : SessionM Unit := do
  let s ← read
  eventLoop (s.session.conn.now.events.length + 1)

-- ============================================================================
-- The SSH socket
-- ============================================================================

/-- The loop of `poll_ssh_write`.  Every round that goes on uses up an answer of
    the socket. -/
def sshWriteLoop : Nat → Bool → SessionM Bool
  | 0, progress => return progress
  | fuel + 1, progress => do
      match ← onConn Connection.peekOut with
      | none => return progress
      | some chunk => do
          match (← askSshWrite).upTo chunk.length with
          | .ready 0 => Proc.throw .closed
          | .ready (n + 1) => do
              observe (.moved (n + 1))
              onConn (Connection.consumeOut (n + 1))
              sshWriteLoop fuel true
          | .failed => Proc.throw .io
          | .wouldBlock | .pending => return progress

/-- `poll_ssh_write`. -/
def pollSshWrite : SessionM Bool := do
  let s ← read
  sshWriteLoop (s.world.sshWrites.length + 1) false

/-- `poll_ssh_read`, where `Pending` makes no progress. -/
def pollSshRead : SessionM Bool := do
  match ← askSshRead with
  | .ready bytes => do
      let got := bytes.take (64 * 1024)
      if got = [] then do
        onConn (Connection.disconnect 11 "connection lost")
        return true
      else do
        observe (.moved got.length)
        onConn (Call.recv got).run
        onConn Connection.processIn
        return true
  | .failed => Proc.throw .io
  | .wouldBlock | .pending => return false

-- ============================================================================
-- Connects
-- ============================================================================

/-- The first loop of `poll_connects`: the ids that timed out, and those whose
    connect is done, with the error if there was one. -/
def scanConnects : Dests → SessionM (List UInt32 × List (UInt32 × Option String))
  | [] => return ([], [])
  | (_, .up _ _) :: ds => scanConnects ds
  | (id, .connecting _ _ deadline) :: ds => do
      let now ← askClock id
      if now > deadline then do
        let (timeout, done) ← scanConnects ds
        return (id :: timeout, done)
      else do
        match ← askConnect id with
        | .ready => do
            let (timeout, done) ← scanConnects ds
            return (timeout, (id, none) :: done)
        | .failed msg => do
            let (timeout, done) ← scanConnects ds
            return (timeout, (id, some msg) :: done)
        | .pending => scanConnects ds

/-- What becomes of a connect that timed out. -/
def timeOut (id : UInt32) : SessionM Unit := do
  removeDest id
  observe (.resolved id)
  onConn (Connection.failOpen id 2 "timeout")

/-- What becomes of a connect that is done. -/
def finishConnect : UInt32 × Option String → SessionM Unit
  | (id, none) => do
      removeDest id
      observe (.resolved id)
      onConn (Connection.confirmOpen id)
      insertDest id (.up false false)
  | (id, some msg) => do
      removeDest id
      observe (.resolved id)
      onConn (Connection.failOpen id 2 msg)

/-- `poll_connects`. -/
def pollConnects : SessionM Bool := do
  let s ← read
  let (timeout, done) ← scanConnects (s.world.order s.session.dests).val
  Proc.forEach timeOut timeout
  Proc.forEach finishConnect done
  return !timeout.isEmpty || !done.isEmpty

-- ============================================================================
-- Targets
-- ============================================================================

/-- Where a part of `poll_dest_one` leaves: with its progress so far, and
    whether the target is gone, which is an early return. -/
abbrev Part := Bool × Bool

/-- The first part of `poll_dest_one`: inbound data to the target.  Every round
    that goes on uses up an answer of the target. -/
def destWriteLoop (id : UInt32) : Nat → Bool → SessionM Part
  | 0, progress => return (progress, false)
  | fuel + 1, progress => do
      let s ← read
      match s.session.conn.now.peekInbound id, s.session.dests.get? id with
      | some chunk, some (.up _ readEof) => do
          match (← askDestWrite id).upTo chunk.length with
          | .ready 0 => do
              setDest id (.up true readEof)
              return (progress, false)
          | .ready (n + 1) => do
              observe (.moved (n + 1))
              onConn (Connection.consumeInbound id (n + 1))
              destWriteLoop id fuel true
          | .failed => do
              onConn (Proc.ignore (Connection.sendEof id))
              onConn (Proc.ignore (Connection.sendClose id))
              removeDest id
              return (true, true)
          | .wouldBlock | .pending => return (progress, false)
      | _, _ => return (progress, false)

/-- The second part: one read from the target. -/
def destRead (id : UInt32) (progress : Bool) : SessionM Part := do
  let s ← read
  let allow := s.session.conn.now.outboundAllowance id
  match s.session.dests.get? id with
  | some (.up writeShutdown false) =>
      if allow > 0 then do
        let nmax := min allow (max s.session.maxPacket.toNat 16384)
        match ← askDestRead id with
        | .ready bytes => do
            let got := bytes.take nmax
            if got = [] then do
              setDest id (.up writeShutdown true)
              onConn (Connection.sendEof id)
              return (true, false)
            else do
              let sent ← onConn (Connection.sendDataCounted id got)
              observe (.moved sent)
              return (true, false)
        | .failed => do
            onConn (Connection.sendEof id)
            onConn (Connection.sendClose id)
            removeDest id
            return (true, true)
        | .wouldBlock | .pending => return (progress, false)
      else return (progress, false)
  | _ => return (progress, false)

/-- `inbound_empty`. -/
def inboundEmpty (c : Connection) (id : UInt32) : Bool :=
  ((c.peekInbound id).map List.isEmpty).getD true

/-- The last part: close the channel when both directions are done. -/
def destDone (id : UInt32) (progress : Bool) : SessionM Bool := do
  let s ← read
  match s.session.dests.get? id with
  | some (.up writeShutdown readEof) =>
      let c := s.session.conn.now
      if (readEof && (writeShutdown || c.channelGotEof id)) && inboundEmpty c id then do
        onConn (Connection.sendClose id)
        removeDest id
        return true
      else return progress
  | _ => return progress

/-- `poll_dest_one`. -/
def pollDestOne (id : UInt32) : SessionM Bool := do
  let s ← read
  let (progress, gone) ← destWriteLoop id ((s.world.destWrites id).length + 1) false
  if gone then return progress
  else do
    let (progress, gone) ← destRead id progress
    if gone then return progress else destDone id progress

/-- The loop of `poll_dests`. -/
def destLoop : List UInt32 → Bool → SessionM Bool
  | [], progress => return progress
  | id :: ids, progress => do
      let s ← read
      if !s.session.conn.now.channelAlive id then do
        removeDest id
        destLoop ids progress
      else if s.session.conn.now.channelKind id = some .session then destLoop ids progress
      else do
        let p ← pollDestOne id
        destLoop ids (progress || p)

/-- `poll_dests`. -/
def pollDests : SessionM Bool := do
  let ids ← onConn Connection.roundRobinIds
  destLoop ids false

-- ============================================================================
-- The loop of poll
-- ============================================================================

/-- How an iteration of the loop of `poll` ends. -/
inductive Turn where
  | done
  | pending
  | again
  deriving DecidableEq, Repr

/-- One iteration of the loop. -/
def turn : SessionM Turn := do
  let p1 ← pollSshWrite
  let p2 ← pollSshRead
  let p3 ← pollSshWrite
  handleEvents
  let p4 ← pollConnects
  let p5 ← pollDests
  handleEvents
  let p6 ← pollSshWrite
  let s ← read
  let c := s.session.conn.now
  if c.isFinished then return .done
  else if c.closed && !c.wantsWrite then return .done
  else if !(p1 || p2 || p3 || p4 || p5 || p6) then return .pending
  else return .again

end Session

end Ssproxy
