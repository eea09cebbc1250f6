/-
  Ssproxy.Pair.Carried

  One direction between two connections.  What `a` sealed and `b` has not
  handled is in flight: the bytes of these packets are what `b` has in its
  buffer, what is on the way and what `a` still holds.  The send key of `a`
  leads through the packets in flight to the receive key of `b`, so `b` opens
  each packet as it was sealed.
-/

import Ssproxy.Lib.Relay
import Ssproxy.Pair.Talks
import Ssproxy.Fragments
import Ssproxy.Framing

namespace Ssproxy

open Lib Wire Connection Relation

-- ============================================================================
-- Packets
-- ============================================================================

/-- A packet that was sealed: the state before, the payload and the bytes. -/
structure Packet where
  before : Connection
  payload : Bytes
  wire : Bytes

/-- The packet that an observation is about. -/
def Obs.packet : Obs → Option Packet
  | queued before _ payload wire => some ⟨before, payload, wire⟩
  | _ => none

/-- The packets sealed so far. -/
def sentPackets (log : List Obs) : List Packet := log.filterMap Obs.packet

/-- The number of the receive key in place, the key and the sequence number. -/
def Connection.recvLine (c : Connection) : Nat × (DirectionKeys × UInt32) :=
  (c.recvInstalls, c.recvCipher, c.recvSeq)

/-- The send key after the packet: NEWKEYS puts the pending one in place. -/
def Packet.after (i : Packet) : Nat × (DirectionKeys × UInt32) :=
  if IsMsg .newkeys i.payload then
    (i.before.sendInstalls + 1, (i.before.pendingKeys.map (·.send)).getD .clear,
      if i.before.strictKex then 0 else i.before.sendSeq + 1)
  else (i.before.sendInstalls, tick (i.before.sendCipher, i.before.sendSeq))

/-- Packets are stamped with the send key; the key and the payload are compared. -/
def packetStamp :
    Stamp (Nat × (DirectionKeys × UInt32)) Packet ((Nat × (DirectionKeys × UInt32)) × Bytes) where
  line i := i.before.sendLine
  next := Packet.after
  label i := (i.before.sendLine, i.payload)

/-- The payloads handled so far, each with the key it was opened with. -/
def openedPackets (log : List Obs) : List ((Nat × (DirectionKeys × UInt32)) × Bytes) :=
  (handledPackets log).map fun x => (x.1.recvLine, x.2)

/-- The payloads sealed so far, each with the key it was sealed with. -/
def sealedPackets (log : List Obs) : List ((Nat × (DirectionKeys × UInt32)) × Bytes) :=
  (sentPackets log).map packetStamp.label

/-- The packets of `flight` that belong to a key exchange. -/
def kexPackets (flight : List Packet) : List Packet :=
  flight.filter fun i => (kexMsg i.payload).isSome

/-- The bytes of the packets. -/
def wireBytes (flight : List Packet) : Bytes := flight.flatMap Packet.wire

/-- The length field of every packet counts its bytes. -/
def LengthsFit (log : List Obs) : Prop := ∀ i ∈ sentPackets log, i.payload.length + 32 < 2 ^ 32

theorem sentPackets_append (l l' : List Obs) :
    sentPackets (l ++ l') = sentPackets l ++ sentPackets l' :=
  List.filterMap_append

theorem openedPackets_append (l l' : List Obs) :
    openedPackets (l ++ l') = openedPackets l ++ openedPackets l' := by
  simp [openedPackets, handledPackets]

theorem kexPackets_append (l l' : List Packet) :
    kexPackets (l ++ l') = kexPackets l ++ kexPackets l' :=
  List.filter_append l l'

theorem kexPackets_cons (i : Packet) (l : List Packet) :
    kexPackets (i :: l) = if (kexMsg i.payload).isSome then i :: kexPackets l else kexPackets l :=
  List.filter_cons

theorem wireBytes_append (l l' : List Packet) :
    wireBytes (l ++ l') = wireBytes l ++ wireBytes l' :=
  List.flatMap_append

theorem LengthsFit.mono {l l' : List Obs} (h : LengthsFit l') (hl : l <+: l') : LengthsFit l := by
  obtain ⟨new, rfl⟩ := hl
  intro i hi
  apply h i
  rw [sentPackets_append]
  exact List.mem_append_left _ hi

/-- Observations that are no packets. -/
theorem sentPackets_quiet {new : List Obs} (h : ∀ o ∈ new, o.isTraffic = false) :
    sentPackets new = [] := by
  apply List.filterMap_eq_nil_iff.mpr
  intro o ho
  have hquiet := h o ho
  cases o with
  | queued b owner payload wire => cases hquiet
  | _ => rfl

theorem openedPackets_quiet {new : List Obs} (h : ∀ o ∈ new, o.isTraffic = false) :
    openedPackets new = [] := by
  have hnil : handledPackets new = [] := by
    apply List.filterMap_eq_nil_iff.mpr
    intro o ho
    have hquiet := h o ho
    cases o with
    | handled b p => cases hquiet
    | _ => rfl
  rw [openedPackets, hnil, List.map_nil]

variable [CryptoLib]

/-- The packet is what sealing its payload gave. -/
structure Packet.Sealed (i : Packet) : Prop where
  nonempty : i.payload ≠ []
  made : ∃ cipher pkt tag, i.wire = pkt ++ tag ∧
    i.before.sendCipher.sealBuf i.before.sendSeq (i.before.frame i.payload)
      (List.replicate i.before.sendCipher.kind.tagLen 0) = .ok (cipher, pkt, tag)

-- ============================================================================
-- Taking the packet at the front
-- ============================================================================

/-- A packet beyond the limit is refused as soon as its length is read. -/
theorem takePacket_oversize {i : Packet} {r : Conn} {rest : Bytes} (hi : i.Sealed)
    (hcount : i.payload.length + 32 < 2 ^ 32)
    (hmax : Ssproxy.maxPacket < 1 + i.payload.length + i.before.padFor i.payload)
    (hcipher : r.now.recvCipher = i.before.sendCipher) (hseq : r.now.recvSeq = i.before.sendSeq)
    (hbuf : r.now.readBuf = i.wire ++ rest) : ∃ e, takePacket r = .err e r := by
  obtain ⟨cipher, pkt, tag, hwire, hseal⟩ := hi.made
  have hframe := i.before.length_frame i.payload
  have hpad := i.before.padFor_le i.payload
  have hpkt := (DirectionKeys.sealBuf_length hseal).1
  have hlen : (UInt32.ofNat (1 + i.payload.length + i.before.padFor i.payload)).toNat
      = 1 + i.payload.length + i.before.padFor i.payload :=
    UInt32.toNat_ofNat_of_lt (Nat.lt_of_lt_of_le (m := 2 ^ 32) (by omega) (Nat.le_refl _))
  have hlength : r.now.readBuf.length = pkt.length + tag.length + rest.length := by
    rw [hbuf, hwire, List.length_append, List.length_append]
  have hfront : (r.now.readBuf.drop 0).take (4 - 0) = pkt.take 4 := by
    rw [hbuf, hwire, List.append_assoc]
    exact List.take_append_of_le_length (by omega)
  have hplain : r.now.recvCipher.decryptLength r.now.recvSeq (pkt.take 4)
      = beBytes (UInt32.ofNat (1 + i.payload.length + i.before.padFor i.payload)) := by
    rw [hcipher, hseq]
    exact DirectionKeys.decryptLength_sealed hseal (by omega)
  unfold takePacket
  simp only [Proc.bind_apply, Traced.read_apply, Outcome.bind_ok, Proc.ite_apply]
  rw [if_neg (by omega), Proc.slice_of_le (Nat.zero_le 4) (by omega), hfront]
  simp only [Outcome.bind_ok, hplain]
  rw [Proc.bind_of_ok (beU32_beBytes _ r)]
  simp only [Proc.bind_apply, Proc.failIf_apply]
  rw [if_pos (.inr (by rw [hlen]; exact hmax))]
  exact ⟨_, rfl⟩

/-- With all of its bytes there, the packet at the front is taken as it was
    sealed. -/
theorem takePacket_whole [CryptoLaws] {i : Packet} {r : Conn} {rest : Bytes} (hi : i.Sealed)
    (hmax : 1 + i.payload.length + i.before.padFor i.payload ≤ Ssproxy.maxPacket)
    (hline : i.before.sendLine = r.now.recvLine) (hbuf : r.now.readBuf = i.wire ++ rest) :
    takePacket r = .ok (some i.payload)
      ⟨r.now.received i.before.sendCipher.advanced rest i.wire.length, r.log⟩ := by
  obtain ⟨cipher, pkt, tag, hwire, hseal⟩ := hi.made
  have hcipher : r.now.recvCipher = i.before.sendCipher := congrArg (·.2.1) hline.symm
  have hseq : r.now.recvSeq = i.before.sendSeq := congrArg (·.2.2) hline.symm
  rw [hwire] at hbuf ⊢
  rw [← DirectionKeys.sealBuf_advanced hseal]
  exact takePacket_apply (arrived_of_sealed hseal hi.nonempty hmax hcipher hseq hbuf)

/-- The packet at the front is taken as it was sealed, even while what follows
    it is still on the way. -/
theorem takePacket_front [CryptoLaws] {i : Packet} {b b1 : Conn} {payload later rest : Bytes}
    (hi : i.Sealed) (hcount : i.payload.length + 32 < 2 ^ 32)
    (hid : b.now.identInDone = true) (hline : i.before.sendLine = b.now.recvLine)
    (hbuf : b.now.readBuf ++ later = i.wire ++ rest)
    (htake : takePacket b = .ok (some payload) b1) :
    payload = i.payload ∧ b1.now.readBuf ++ later = rest ∧
      b1.now.recvCipher = i.before.sendCipher.advanced ∧ b1.now.recvSeq = i.before.sendSeq + 1 := by
  have hcipher : b.now.recvCipher = i.before.sendCipher := congrArg (·.2.1) hline.symm
  have hseq : b.now.recvSeq = i.before.sendSeq := congrArg (·.2.2) hline.symm
  -- the same connection with all the bytes there
  have hahead : Ahead later b (fed later b) := ⟨b.now.readBuf, rfl, hid, rfl, rfl⟩
  have hagree : (takePacket b).Agree (Ahead later) (takePacket (fed later b)) := by
    rcases takePacket_ahead hahead with hlacks | hagree
    · rw [takePacket_of_lacks hlacks] at htake
      cases htake
    · exact hagree
  rw [htake] at hagree
  have hwhole : (fed later b).now.readBuf = i.wire ++ rest := hbuf
  have hmax : 1 + i.payload.length + i.before.padFor i.payload ≤ Ssproxy.maxPacket := by
    apply Nat.le_of_not_lt
    intro hover
    obtain ⟨e, he⟩ :=
      takePacket_oversize (r := fed later b) hi hcount hover hcipher hseq hwhole
    rw [he] at hagree
    exact hagree
  rw [takePacket_whole (r := fed later b) hi hmax hline hwhole] at hagree
  obtain ⟨hpayload, r, habreast⟩ := hagree
  have hnow := habreast.now
  refine ⟨Option.some.inj hpayload, ?_, ?_, ?_⟩
  · rw [habreast.buf]
    exact (congrArg (·.readBuf) hnow).symm
  · exact (congrArg (·.recvCipher) hnow).symm
  · rw [← hseq]
    exact (congrArg (·.recvSeq) hnow).symm

/-- As long as the packet at the front is within the limit, taking a packet does
    not fail: it waits for more bytes, or returns the payload that was sealed. -/
theorem takePacket_waits [CryptoLaws] {i : Packet} {b : Conn} {later rest : Bytes} (hi : i.Sealed)
    (hmax : 1 + i.payload.length + i.before.padFor i.payload ≤ Ssproxy.maxPacket)
    (hid : b.now.identInDone = true) (hline : i.before.sendLine = b.now.recvLine)
    (hbuf : b.now.readBuf ++ later = i.wire ++ rest) :
    (takePacket b).Sat (fun r _ => r = none ∨ r = some i.payload) (fun _ _ => False) := by
  have hahead : Ahead later b (fed later b) := ⟨b.now.readBuf, rfl, hid, rfl, rfl⟩
  rcases takePacket_ahead hahead with hlacks | hagree
  · rw [takePacket_of_lacks hlacks]
    exact .inl rfl
  · rw [takePacket_whole (r := fed later b) hi hmax hline hbuf] at hagree
    cases htake : takePacket b with
    | ok r c1 =>
      rw [htake] at hagree
      exact .inr hagree.1
    | err e c1 =>
      rw [htake] at hagree
      exact hagree
    | panic =>
      rw [htake] at hagree
      exact hagree

-- ============================================================================
-- One direction
-- ============================================================================

/-- The bytes between `a` and `b`: `b` has read the ident line of `a`, and the
    packets in flight come next, or it is still to come. -/
inductive Between (a b : Connection) (pipe wires : Bytes) : Prop where
  | packets (hid : b.identInDone = true) (hpeer : b.identPeer = some a.identLocal)
      (hbytes : b.readBuf ++ pipe ++ a.held = wires)
  | line (hid : b.identInDone = false) (hpeer : b.identPeer = none)
      (hbytes : b.identAcc ++ b.readBuf ++ pipe ++ a.held
        = strBytes a.identLocal ++ [13, 10] ++ wires)

/-- The direction from `a` to `b`, with `pipe` on the way and the packets of
    `flight` not yet handled. -/
structure Carried (a b : Conn) (pipe : Bytes) (flight : List Packet) : Prop where
  relay : Relay packetStamp (sentPackets a.log) (openedPackets b.log) flight b.now.recvLine
    a.now.sendLine
  sealed : ∀ i ∈ flight, i.Sealed
  bytes : Between a.now b.now pipe (wireBytes flight)

variable {a a' a1 b b' b1 : Conn} {pipe p payload chunk : Bytes} {flight : List Packet}
  {owner : Option UInt32}

omit [CryptoLib] in
/-- More was sealed, and it is held. -/
theorem Between.more {x y z : Connection} {wires new : Bytes} (h : Between x y pipe wires)
    (hident : z.identLocal = x.identLocal) (hheld : z.held = x.held ++ new) :
    Between z y pipe (wires ++ new) := by
  cases h with
  | packets hid hpeer hbytes =>
    apply Between.packets hid
    · rw [hident]
      exact hpeer
    · rw [hheld, ← hbytes, ← List.append_assoc]
  | line hid hpeer hbytes =>
    apply Between.line hid hpeer
    rw [hheld, hident, ← List.append_assoc, hbytes, List.append_assoc]

omit [CryptoLib] in
/-- The reader did not read. -/
theorem Between.reader {x y z : Connection} {wires : Bytes} (h : Between x y pipe wires)
    (hident : z.ident = y.ident) (hin : z.inbound = y.inbound) : Between x z pipe wires := by
  have hdone : z.identInDone = y.identInDone := congrArg Ident.done hident
  have hpeer : z.identPeer = y.identPeer := congrArg Ident.peer hident
  have hbuf : z.readBuf = y.readBuf := congrArg Inbound.buf hin
  have hacc : z.identAcc = y.identAcc := congrArg Inbound.acc hin
  cases h with
  | packets hid hp hbytes =>
    exact .packets (hdone.trans hid) (hpeer.trans hp) (by rw [hbuf]; exact hbytes)
  | line hid hp hbytes =>
    exact .line (hdone.trans hid) (hpeer.trans hp) (by rw [hacc, hbuf]; exact hbytes)

namespace Carried

-- ----------------------------------------------------------------------------
-- The writer
-- ----------------------------------------------------------------------------

/-- The writer has its send key and its packets still. -/
theorem writer (h : Carried a b pipe flight) (hline : a'.now.sendLine = a.now.sendLine)
    (hheld : a'.now.held = a.now.held) (hset : a'.now.settings = a.now.settings)
    (hsent : sentPackets a'.log = sentPackets a.log) : Carried a' b pipe flight := by
  refine ⟨?_, h.sealed, ?_⟩
  · rw [hline, hsent]
    exact h.relay
  · have hnone : a'.now.held = a.now.held ++ [] := by rw [hheld, List.append_nil]
    have hbytes := h.bytes.more (congrArg (·.identLocal) hset) hnone
    rwa [List.append_nil] at hbytes

/-- The writer seals a message; what it does after that leaves its send key as the
    packet says. -/
theorem send (h : Carried a b pipe flight) (hq : Queues owner payload a a1)
    (hline : ∀ wire, a'.now.sendLine = Packet.after ⟨a.now, payload, wire⟩)
    (hheld : a'.now.held = a1.now.held) (hset : a'.now.settings = a1.now.settings)
    (hlog : a'.log = a1.log) :
    ∃ i : Packet, i.before = a.now ∧ i.payload = payload ∧ Carried a' b pipe (flight ++ [i]) := by
  have hident : a'.now.identLocal = a.now.identLocal :=
    (congrArg (·.identLocal) hset).trans (congrArg (·.identLocal) hq.extends.settings)
  cases hq with
  | @mk cipher pkt tag hne hseal =>
    refine ⟨⟨a.now, payload, pkt ++ tag⟩, rfl, rfl, ?_, ?_, ?_⟩
    · rw [hline (pkt ++ tag), hlog, sentPackets_append]
      exact h.relay.send rfl
    · intro i hi
      rcases List.mem_append.mp hi with hi | hi
      · exact h.sealed i hi
      · rw [List.mem_singleton.mp hi]
        exact ⟨hne, cipher, pkt, tag, rfl, hseal⟩
    · rw [wireBytes_append]
      apply h.bytes.more hident
      rw [hheld]
      simp [wireBytes, Connection.held, Connection.sealed]

theorem queue (h : Carried a b pipe flight) (hq : Queues owner payload a a')
    (hnew : ¬IsMsg .newkeys payload) :
    ∃ i : Packet, i.before = a.now ∧ i.payload = payload ∧ Carried a' b pipe (flight ++ [i]) := by
  apply h.send hq _ rfl rfl rfl
  intro wire
  cases hq with
  | mk hne hseal =>
    rw [Packet.after, if_neg hnew]
    show (_, _, _) = _
    rw [DirectionKeys.sealBuf_advanced hseal]
    rfl

theorem switch {pk : PendingKeys} (h : Carried a b pipe flight) (hs : Switches pk a a') :
    ∃ i : Packet, i.before = a.now ∧ i.payload = Msg.newkeys ∧
      Carried a' b pipe (flight ++ [i]) := by
  cases hs with
  | @mk a1 hpk hq =>
    refine h.send hq (fun wire => ?_) rfl rfl rfl
    have hnew : IsMsg .newkeys Msg.newkeys := rfl
    have hstrict : a1.now.strictKex = a.now.strictKex := congrArg (·.conn.strictKex) hq.control
    have hinstalls : a1.now.sendInstalls = a.now.sendInstalls :=
      congrArg (·.conn.sendInstalls) hq.control
    have hseq : a1.now.sendSeq = a.now.sendSeq + 1 := by
      cases hq
      rfl
    rw [Packet.after, if_pos hnew]
    show (a1.now.sendInstalls + 1, pk.send, if a1.now.strictKex then 0 else a1.now.sendSeq) = _
    rw [hstrict, hinstalls, hseq, hpk]
    rfl

/-- A move that is none of a key exchange adds no packet of one. -/
theorem talk (h : Carried a b pipe flight) (ht : Talk a a') :
    ∃ new, kexPackets new = [] ∧ Carried a' b pipe (flight ++ new) := by
  cases ht with
  | rest he hlog hnew =>
    refine ⟨[], rfl, ?_⟩
    rw [List.append_nil]
    apply h.writer (congrArg (·.line) he) (congrArg (·.held) he) (congrArg (·.party.settings) he)
    rw [hlog, sentPackets_append, sentPackets_quiet hnew, List.append_nil]
  | @say _ payload hq hp =>
    have hnew : ¬IsMsg .newkeys payload := by
      intro hm
      rw [kexMsg_of_isMsg hm] at hp
      cases hp
    obtain ⟨i, -, hi, hc⟩ := h.queue hq hnew
    refine ⟨[i], ?_, hc⟩
    apply List.filter_eq_nil_iff.mpr
    intro j hj
    rw [List.mem_singleton.mp hj, hi, hp]
    exact Bool.false_ne_true

theorem talks (h : Carried a b pipe flight) (ht : Talks a a') :
    ∃ new, kexPackets new = [] ∧ Carried a' b pipe (flight ++ new) := by
  induction ht with
  | refl => exact ⟨[], rfl, by rwa [List.append_nil]⟩
  | tail _ hlast ih =>
    obtain ⟨new, hnew, hc⟩ := ih
    obtain ⟨more, hmore, hc'⟩ := hc.talk hlast
    refine ⟨new ++ more, ?_, by rwa [← List.append_assoc]⟩
    rw [kexPackets_append, hnew, hmore]
    rfl

-- ----------------------------------------------------------------------------
-- The reader
-- ----------------------------------------------------------------------------

/-- The reader did not read. -/
theorem reader (h : Carried a b pipe flight) (hident : b'.now.ident = b.now.ident)
    (hin : b'.now.inbound = b.now.inbound) (hgot : openedPackets b'.log = openedPackets b.log) :
    Carried a b' pipe flight := by
  have hline : b'.now.recvLine = b.now.recvLine :=
    congrArg (fun i => (i.installs, i.cipher, i.seq)) hin
  refine ⟨?_, h.sealed, h.bytes.reader hident hin⟩
  rw [hline, hgot]
  exact h.relay

theorem readerTalk (h : Carried a b pipe flight) (ht : Talk b b') : Carried a b' pipe flight := by
  cases ht with
  | rest he hlog hnew =>
    apply h.reader (congrArg (·.ident) he) (congrArg (·.inbound) he)
    rw [hlog, openedPackets_append, openedPackets_quiet hnew, List.append_nil]
  | say hq hp =>
    obtain ⟨wire, hlog⟩ := hq.log
    apply h.reader hq.extends.ident hq.extends.inbound
    rw [hlog, openedPackets_append]
    exact List.append_nil _

theorem readerTalks (h : Carried a b pipe flight) (ht : Talks b b') :
    Carried a b' pipe flight := by
  induction ht with
  | refl => exact h
  | tail _ hlast ih => exact ih.readerTalk hlast

/-- Without a packet in the log, the reader's moves are nothing to the writer. -/
theorem readerExtends (h : Carried a b pipe flight) (he : Extends b b') :
    Carried a b' pipe flight := by
  apply h.reader he.ident he.inbound
  obtain ⟨new, hlog, hnew⟩ := he.log
  have hnil : openedPackets new = [] := by
    rw [openedPackets, List.map_eq_nil_iff]
    apply List.filterMap_eq_nil_iff.mpr
    intro o ho
    have hroutine := hnew o ho
    cases o with
    | handled before p => exact hroutine.elim
    | _ => rfl
  rw [hlog, openedPackets_append, hnil, List.append_nil]

/-- The same, begun in a state that looks the same to the writer. -/
theorem readerSince (h : Carried a b pipe flight) (he : Extends b1 b')
    (hident : b1.now.ident = b.now.ident) (hin : b1.now.inbound = b.now.inbound)
    (hlog : b1.log = b.log) : Carried a b' pipe flight :=
  (h.reader hident hin (congrArg openedPackets hlog)).readerExtends he

/-- The bytes of the packets in flight: in the buffer, on the way, and held. -/
theorem ready (h : Carried a b pipe flight) (hid : b.now.identInDone = true) :
    b.now.readBuf ++ (pipe ++ a.now.held) = wireBytes flight ∧
      b.now.identPeer = some a.now.identLocal := by
  cases h.bytes with
  | packets _ hpeer hbytes =>
    rw [List.append_assoc] at hbytes
    exact ⟨hbytes, hpeer⟩
  | line hno _ _ => exact absurd (hid.symm.trans hno) (by decide)

/-- The reader takes a packet: it is the first in flight.  The reader follows
    once its receive key is what the packet says. -/
theorem take [CryptoLaws] (h : Carried a b pipe flight) (hfit : LengthsFit a.log)
    (hid : b.now.identInDone = true) (hr : Receives p b b1) :
    ∃ (i : Packet) (rest : List Packet), flight = i :: rest ∧ i.payload = p ∧
      b1.now.recvLine = (i.before.sendInstalls, i.before.sendCipher.advanced,
        if IsMsg .newkeys p ∧ b.now.strictKex then 0 else i.before.sendSeq + 1) ∧
      ∀ b' : Conn, b'.now.ident = b1.now.ident → b'.now.readBuf = b1.now.readBuf →
        b'.now.recvLine = i.after → openedPackets b'.log = openedPackets b1.log →
        Carried a b' pipe rest := by
  obtain ⟨hbytes, hpeer⟩ := h.ready hid
  have hlog := hr.log
  have hident := hr.ident
  cases hr with
  | @mk cipher left total htake hpass =>
    cases flight with
    | nil =>
      have hempty : b.now.readBuf = [] := (List.append_eq_nil_iff.mp hbytes).1
      have hlacks : b.now.Lacks := .inl (by rw [hempty]; decide)
      rw [takePacket_of_lacks hlacks] at htake
      cases htake
    | cons i rest =>
      have hsealed := h.sealed i List.mem_cons_self
      have hline : i.before.sendLine = b.now.recvLine := h.relay.leads.head
      have hcount : i.payload.length + 32 < 2 ^ 32 := by
        obtain ⟨done, hsent, -⟩ := h.relay.split
        apply hfit i
        rw [hsent]
        exact List.mem_append_right _ List.mem_cons_self
      obtain ⟨hp, hleft, hcipher, hseq⟩ :=
        takePacket_front hsealed hcount hid hline hbytes htake
      have hinstalls : b.now.recvInstalls = i.before.sendInstalls := congrArg (·.1) hline.symm
      have hbuf : ((b.now.received cipher left total).resetRecv p).readBuf = left := by
        unfold resetRecv
        split <;> rfl
      refine ⟨i, rest, rfl, hp.symm, ?_, fun b' hident' hbuf' hline' hgot => ⟨?_, ?_, ?_⟩⟩
      · show (_, _, _) = (_, _, _)
        rw [← hcipher, ← hseq, ← hinstalls]
        unfold resetRecv
        by_cases hreset : IsMsg .newkeys p ∧ b.now.strictKex = true
        · rw [if_pos hreset, if_pos (show _ ∧ (b.now.received _ _ _).strictKex = true from hreset)]
          rfl
        · rw [if_neg hreset,
            if_neg (show ¬(_ ∧ (b.now.received _ _ _).strictKex = true) from hreset)]
          rfl
      · rw [hline', hgot, hlog, openedPackets_append]
        have hlabel : openedPackets [.handled b.now p] = [packetStamp.label i] := by
          show [(b.now.recvLine, p)] = [(i.before.sendLine, i.payload)]
          rw [hline, hp]
        rw [hlabel]
        exact h.relay.take
      · exact fun j hj => h.sealed j (List.mem_cons_of_mem _ hj)
      · have hsame := hident'.trans hident
        have hdone : b'.now.identInDone = b.now.identInDone := congrArg Ident.done hsame
        have hpeer' : b'.now.identPeer = b.now.identPeer := congrArg Ident.peer hsame
        apply Between.packets (hdone.trans hid) (hpeer'.trans hpeer)
        rw [hbuf', hbuf, List.append_assoc]
        exact hleft

/-- A packet that is no NEWKEYS: the reader follows at once. -/
theorem takePlain [CryptoLaws] (h : Carried a b pipe flight) (hfit : LengthsFit a.log)
    (hid : b.now.identInDone = true) (hr : Receives p b b1) (hnew : ¬IsMsg .newkeys p) :
    ∃ (i : Packet) (rest : List Packet), flight = i :: rest ∧ i.payload = p ∧
      Carried a b1 pipe rest := by
  obtain ⟨i, rest, hflight, hi, hline, hnext⟩ := h.take hfit hid hr
  refine ⟨i, rest, hflight, hi, hnext b1 rfl rfl ?_ rfl⟩
  rw [hline, if_neg fun hm => hnew hm.1, Packet.after, if_neg (hi ▸ hnew)]
  rfl

/-- The writer takes a packet of the other direction. -/
theorem writerReceives (h : Carried a b pipe flight) (hr : Receives p a a1) :
    Carried a1 b pipe flight := by
  apply h.writer hr.outward.1 hr.outward.2 hr.settings
  rw [hr.log, sentPackets_append]
  exact List.append_nil _

-- ----------------------------------------------------------------------------
-- The way between
-- ----------------------------------------------------------------------------

/-- The socket of the writer takes the first of the bytes held. -/
theorem drain (h : Carried a b pipe flight) (hline : a'.now.sendLine = a.now.sendLine)
    (hheld : chunk ++ a'.now.held = a.now.held) (hset : a'.now.settings = a.now.settings)
    (hlog : a'.log = a.log) : Carried a' b (pipe ++ chunk) flight := by
  have hident : a'.now.identLocal = a.now.identLocal := congrArg (·.identLocal) hset
  refine ⟨by rw [hline, hlog]; exact h.relay, h.sealed, ?_⟩
  cases h.bytes with
  | packets hid hpeer hbytes =>
    apply Between.packets hid (hident ▸ hpeer)
    rw [← hbytes, ← hheld]
    simp only [List.append_assoc]
  | line hid hpeer hbytes =>
    apply Between.line hid hpeer
    rw [hident, ← hbytes, ← hheld]
    simp only [List.append_assoc]

/-- What the reader took for the ident line of its peer is that of the writer. -/
theorem peer {s : String} (h : Carried a b pipe flight) (hs : b.now.identPeer = some s) :
    s = a.now.identLocal := by
  cases h.bytes with
  | packets hid hpeer hbytes => exact Option.some.inj (hs.symm.trans hpeer)
  | line hid hpeer hbytes => cases hs.symm.trans hpeer

/-- The first of the bytes on the way reach the buffer of the reader. -/
theorem arrive (h : Carried a b (chunk ++ pipe) flight) : Carried a (fed chunk b) pipe flight := by
  refine ⟨h.relay, h.sealed, ?_⟩
  cases h.bytes with
  | packets hid hpeer hbytes =>
    refine .packets hid hpeer ?_
    rw [← hbytes]
    show b.now.readBuf ++ chunk ++ pipe ++ a.now.held = _
    simp only [List.append_assoc]
  | line hid hpeer hbytes =>
    refine .line hid hpeer ?_
    rw [← hbytes]
    show b.now.identAcc ++ (b.now.readBuf ++ chunk) ++ pipe ++ a.now.held = _
    simp only [List.append_assoc]

end Carried

-- ============================================================================
-- The ident line
-- ============================================================================

/-- The text has no end of line in it. -/
def OneLine (s : String) : Prop := (10 : UInt8) ∉ strBytes s

instance (s : String) : Decidable (OneLine s) :=
  inferInstanceAs (Decidable ((10 : UInt8) ∉ strBytes s))

omit [CryptoLib] in
/-- The first end of line is that of the ident line. -/
theorem findIdx_identLine {line wires text : Bytes} {pos : Nat} (hline : (10 : UInt8) ∉ line)
    (htext : text <+: line ++ [13, 10] ++ wires) (h : text.findIdx? (· == 10) = some pos) :
    pos + 1 = (line ++ [13, 10]).length := by
  obtain ⟨more, hmore⟩ := htext
  have hnone : line.findIdx? (· == 10) = none := by
    apply List.findIdx?_eq_none_iff.mpr
    intro x hx
    apply beq_eq_false_iff_ne.mpr
    rintro rfl
    exact hline hx
  have hwhole : (line ++ [13, 10] ++ wires).findIdx? (· == 10) = some (line.length + 1) := by
    rw [List.append_assoc, List.findIdx?_append, hnone]
    show some (1 + line.length) = _
    rw [Nat.add_comm]
  rw [← hmore, List.findIdx?_append, h] at hwhole
  have hpos : pos = line.length + 1 := Option.some.inj hwhole
  rw [hpos, List.length_append]
  rfl

/-- The reader recognises the ident line of the writer, and the packets follow. -/
theorem Carried.identDone {s : String} {rest : Bytes} (h : Carried a b pipe flight)
    (hone : OneLine a.now.identLocal) (hid : b.now.identInDone = false)
    (hs : IdentLine (b.now.identAcc ++ b.now.readBuf) s rest) :
    Carried a ⟨{ b.now with
      identAcc := [], readBuf := rest, identPeer := some s, identInDone := true }, b.log⟩
      pipe flight := by
  have hbytes : (b.now.identAcc ++ b.now.readBuf) ++ (pipe ++ a.now.held)
      = strBytes a.now.identLocal ++ [13, 10] ++ wireBytes flight := by
    cases h.bytes with
    | packets hyes _ _ => exact absurd (hyes.symm.trans hid) (by decide)
    | line _ _ hbytes => rwa [List.append_assoc] at hbytes
  obtain ⟨pos, hpos, -, hutf, rfl⟩ := hs.line
  have hlen := findIdx_identLine hone ⟨_, hbytes⟩ hpos
  have hin : pos + 1 ≤ (b.now.identAcc ++ b.now.readBuf).length :=
    (List.findIdx?_eq_some_iff_findIdx_eq.mp hpos).1
  generalize b.now.identAcc ++ b.now.readBuf = text at hbytes hutf hin ⊢
  have htake : text.take (pos + 1) = strBytes a.now.identLocal ++ [13, 10] := by
    have hfront := congrArg (List.take (pos + 1)) hbytes
    rwa [List.take_append_of_le_length hin, hlen, List.take_left, ← hlen] at hfront
  have hrest : text.drop (pos + 1) ++ (pipe ++ a.now.held) = wireBytes flight := by
    have hback := congrArg (List.drop (pos + 1)) hbytes
    rwa [List.drop_append_of_le_length hin, hlen, List.drop_left, ← hlen] at hback
  have hname : s = a.now.identLocal := by
    have hpop : popIf 13 (popIf 10 (strBytes a.now.identLocal ++ [13, 10]))
        = strBytes a.now.identLocal := by
      rw [show strBytes a.now.identLocal ++ [13, 10] = strBytes a.now.identLocal ++ [13] ++ [10]
        from (List.append_assoc _ [13] [10]).symm]
      simp only [popIf, List.getLast?_concat, List.dropLast_concat, if_true]
    rw [htake, hpop, fromUtf8_strBytes] at hutf
    exact (Option.some.inj hutf).symm
  refine ⟨h.relay, h.sealed, ?_⟩
  apply Between.packets rfl (congrArg some hname)
  rw [List.append_assoc]
  exact hrest

/-- More of the ident line was gathered. -/
theorem Carried.identWait (h : Carried a b pipe flight) (hid : b.now.identInDone = false) :
    Carried a ⟨{ b.now with identAcc := b.now.identAcc ++ b.now.readBuf, readBuf := [] }, b.log⟩
      pipe flight := by
  refine ⟨h.relay, h.sealed, ?_⟩
  cases h.bytes with
  | packets hyes _ _ => exact absurd (hyes.symm.trans hid) (by decide)
  | line _ hpeer hbytes =>
    refine .line hid hpeer ?_
    rw [← hbytes]
    show b.now.identAcc ++ b.now.readBuf ++ [] ++ pipe ++ a.now.held = _
    rw [List.append_nil]

end Ssproxy
