/-
  Ssproxy.Pair.Sync

  What holds in every run of a link: each end opens what the other sealed, in
  order and with the same keys (`run_opens`, packet by packet in
  `run_synchronised`); when everything sent was handled
  the two ends stand at the same key, and between exchanges they have the same
  session id (`run_agrees`); and the packet layer refuses nothing
  of what is within its limit (`run_takes`).
-/

import Ssproxy.Laws
import Ssproxy.Pair.Link

namespace Ssproxy

open Lib Wire Connection Relation

variable [CryptoLib]

/-- Every packet is within the limit of the receiver. -/
def WithinMax (log : List Obs) : Prop := ∀ i ∈ sentPackets log,
  1 + i.payload.length + i.before.padFor i.payload ≤ Ssproxy.maxPacket

omit [CryptoLib] in
theorem WithinMax.lengthsFit {log : List Obs} (h : WithinMax log) : LengthsFit log := by
  intro i hi
  have hle := h i hi
  rw [Ssproxy.maxPacket] at hle
  omega

/-- Every payload has at most 200000 bytes. -/
def ShortPayloads (log : List Obs) : Prop := ∀ i ∈ sentPackets log, i.payload.length ≤ 200000

omit [CryptoLib] in
theorem ShortPayloads.withinMax {log : List Obs} (h : ShortPayloads log) : WithinMax log := by
  intro i hi
  have hlen := h i hi
  have hpad := padFor_le i.before i.payload
  rw [Ssproxy.maxPacket]
  omega

/-- Connection `before` handles payload `p` as it was sealed in `i`: with the key
    of the same installation, and under the same sequence number. -/
structure Packet.Arrives (i : Packet) (before : Connection) (p : Bytes) : Prop where
  payload : p = i.payload
  installs : before.recvInstalls = i.before.sendInstalls
  key : before.recvCipher = i.before.sendCipher
  seq : before.recvSeq = i.before.sendSeq

/-- Each payload that `b` has handled is the next one that `a` has queued. -/
def Echoes (a b : Conn) : Prop :=
  ∀ (n : Nat) (before : Connection) (p : Bytes), (handledPackets b.log)[n]? = some (before, p) →
    ∃ i, (sentPackets a.log)[n]? = some i ∧ i.Arrives before p

-- ============================================================================
-- One direction
-- ============================================================================

namespace Carried

variable {a b : Conn} {pipe : Bytes} {flight : List Packet}

/-- What was opened is the beginning of what was sealed. -/
theorem opens (h : Carried a b pipe flight) : openedPackets b.log <+: sealedPackets a.log :=
  h.relay.isPrefix

/-- Packet by packet. -/
theorem echoes (h : Carried a b pipe flight) : Echoes a b := by
  intro n before p hn
  have hopened : (openedPackets b.log)[n]? = some (before.recvLine, p) := by
    rw [openedPackets, List.getElem?_map, hn]
    rfl
  have hlt : n < (openedPackets b.log).length := (List.getElem?_eq_some_iff.mp hopened).1
  have hsealed : (sealedPackets a.log)[n]? = some (before.recvLine, p) := by
    rw [List.prefix_iff_getElem?.mp h.opens n hlt, ← hopened, List.getElem?_eq_getElem hlt]
  rw [sealedPackets, List.getElem?_map, Option.map_eq_some_iff] at hsealed
  obtain ⟨i, hi, hlabel⟩ := hsealed
  obtain ⟨hline, hpayload⟩ := Prod.mk.inj hlabel
  obtain ⟨hinstalls, hkey⟩ := Prod.mk.inj hline
  obtain ⟨hcipher, hseq⟩ := Prod.mk.inj hkey
  exact ⟨i, hi, hpayload.symm, hinstalls.symm, hcipher.symm, hseq.symm⟩

/-- When everything was opened, nothing is in flight. -/
theorem flight_nil (h : Carried a b pipe flight)
    (hall : openedPackets b.log = sealedPackets a.log) : flight = [] := by
  obtain ⟨done, hsent, hgot⟩ := h.relay.split
  have hlen := congrArg List.length hall
  rw [hgot, sealedPackets, hsent, List.map_append, List.length_append, List.length_map,
    List.length_map] at hlen
  apply List.length_eq_zero_iff.mp
  omega

/-- Then the reader stands where the writer stands. -/
theorem arrived (h : Carried a b pipe flight) (hall : openedPackets b.log = sealedPackets a.log) :
    b.now.recvLine = a.now.sendLine := by
  have hleads := h.relay.leads
  rw [h.flight_nil hall] at hleads
  exact hleads.eq_of_nil.symm

/-- Taking a packet does not fail: it waits, or returns the next payload. -/
theorem takes [CryptoLaws] (h : Carried a b pipe flight) (hmax : WithinMax a.log)
    (hid : b.now.identInDone = true) :
    (takePacket b).Sat
      (fun r _ => r = none ∨ ∃ p, r = some p ∧
        openedPackets b.log ++ [(b.now.recvLine, p)] <+: sealedPackets a.log)
      (fun _ _ => False) := by
  have hbytes := (h.ready hid).1
  cases flight with
  | nil =>
    have hempty : b.now.readBuf = [] := (List.append_eq_nil_iff.mp hbytes).1
    rw [takePacket_of_lacks (.inl (by rw [hempty]; decide))]
    exact .inl rfl
  | cons i rest =>
    have hline : i.before.sendLine = b.now.recvLine := h.relay.leads.head
    have hmem : i ∈ sentPackets a.log := by
      obtain ⟨done, hsent, -⟩ := h.relay.split
      rw [hsent]
      exact List.mem_append_right _ List.mem_cons_self
    have hwaits := takePacket_waits (h.sealed i List.mem_cons_self) (hmax i hmem) hid hline hbytes
    refine hwaits.mono (fun r _ hr => hr.imp id fun hp => ⟨_, hp, ?_⟩) fun _ _ h => h
    have hnext := h.relay.take.isPrefix
    rw [← hline]
    exact hnext

end Carried

-- ============================================================================
-- A login on concrete bytes
-- ============================================================================

/-- The payload of `i` has at most 200000 bytes. -/
def Packet.short (i : Packet) : Bool := i.payload.length ≤ 200000

omit [CryptoLib] in
theorem shortPayloads_of_all {log : List Obs} (h : (sentPackets log).all Packet.short = true) :
    ShortPayloads log :=
  fun i hi => of_decide_eq_true (List.all_eq_true.mp h i hi)

namespace Toy

/-- A random source that counts up from seven in steps of three. -/
def otherRng : Rng := ⟨fun i => UInt8.ofNat (3 * i + 7), 0⟩

/-- What the peer of `side` has to send reaches `side`, and is handled. -/
def deliver (side : Role) : List Link.Act :=
  [.call side.peer (.consumeOut 4096), .arrive side 4096, .call side .processIn]

/-- Eight deliveries in each direction: key exchange and login. -/
def deliveries : List Link.Act := (List.replicate 8 (deliver .client ++ deliver .server)).flatten

set_option maxRecDepth 4000 in
omit [CryptoLib] in
theorem delivered : ∃ l, @Link.run lib server client rng otherRng deliveries = some l ∧
    ShortPayloads l.server.log ∧ ShortPayloads l.client.log ∧
    openedPackets l.client.log = sealedPackets l.server.log ∧
    openedPackets l.server.log = sealedPackets l.client.log ∧
    (openedPackets l.client.log).length = 6 ∧ (openedPackets l.server.log).length = 5 ∧
    l.client.now.authed = true ∧ l.client.now.kex = none ∧
    l.client.now.identInDone = true ∧ l.server.now.identInDone = true := by
  have hrun : (@Link.run lib server client rng otherRng deliveries).any (fun l =>
      (sentPackets l.server.log).all Packet.short ∧ (sentPackets l.client.log).all Packet.short ∧
      openedPackets l.client.log = sealedPackets l.server.log ∧
      openedPackets l.server.log = sealedPackets l.client.log ∧
      (openedPackets l.client.log).length = 6 ∧ (openedPackets l.server.log).length = 5 ∧
      l.client.now.authed = true ∧ l.client.now.kex = none ∧
      l.client.now.identInDone = true ∧ l.server.now.identInDone = true) = true := by
    decide +kernel
  obtain ⟨l, hl, hfacts⟩ := (Option.any_eq_true _ _).mp hrun
  obtain ⟨hs, hc, hrest⟩ := of_decide_eq_true hfacts
  exact ⟨l, hl, shortPayloads_of_all hs, shortPayloads_of_all hc, hrest⟩

end Toy

-- ============================================================================
-- Whole runs
-- ============================================================================

namespace Link

variable {l : Link} {acts : List Act} {server : ServerConfig} {client : ClientConfig}
  {rngS rngC : Rng}

/-- In every run, whatever the two applications call and however the bytes are cut
    on their way, the payloads that one end has handled are the first of those
    that the other end has sealed, each opened with the key and the sequence
    number it was sealed with. -/
theorem run_opens [CryptoLaws] (hs : OneLine server.ident) (hc : OneLine client.ident)
    (h : run server client rngS rngC acts = some l) (hfitS : LengthsFit l.server.log)
    (hfitC : LengthsFit l.client.log) :
    openedPackets l.client.log <+: sealedPackets l.server.log ∧
      openedPackets l.server.log <+: sealedPackets l.client.log := by
  obtain ⟨fd, fu, hl⟩ := (run_linked hs hc h hfitS hfitC).coupled
  exact ⟨hl.down.opens, hl.up.opens⟩

omit [CryptoLib] in
theorem run_opens_delivered : ∃ l, @run Toy.lib Toy.server Toy.client Toy.rng Toy.otherRng
      Toy.deliveries = some l ∧ (openedPackets l.client.log).length = 6 ∧
    openedPackets l.client.log <+: sealedPackets l.server.log ∧
    openedPackets l.server.log <+: sealedPackets l.client.log := by
  let _ := Toy.lib
  have _ := Toy.laws
  obtain ⟨l, hl, hs, hc, -, -, hlen, -⟩ := Toy.delivered
  exact ⟨l, hl, hlen, run_opens (by decide +kernel) (by decide +kernel) hl
    hs.withinMax.lengthsFit hc.withinMax.lengthsFit⟩

/-- In every run in which no payload is longer than 200000 bytes, each payload that
    one end handles is the next one that the other has queued, opened with the key
    of the same installation and under the same sequence number. -/
theorem run_synchronised [CryptoLaws] (hs : OneLine server.ident) (hc : OneLine client.ident)
    (h : run server client rngS rngC acts = some l) (hshortS : ShortPayloads l.server.log)
    (hshortC : ShortPayloads l.client.log) :
    Echoes l.server l.client ∧ Echoes l.client l.server := by
  obtain ⟨fd, fu, hl⟩ :=
    (run_linked hs hc h hshortS.withinMax.lengthsFit hshortC.withinMax.lengthsFit).coupled
  exact ⟨hl.down.echoes, hl.up.echoes⟩

omit [CryptoLib] in
/-- The sixth packet of the server comes after the first change of keys. -/
theorem run_synchronised_delivered : ∃ l before p i, @run Toy.lib Toy.server Toy.client Toy.rng
      Toy.otherRng Toy.deliveries = some l ∧
    (handledPackets l.client.log)[5]? = some (before, p) ∧
    (sentPackets l.server.log)[5]? = some i ∧ i.Arrives before p := by
  let _ := Toy.lib
  have _ := Toy.laws
  obtain ⟨l, hl, hs, hc, -, -, hlen, -⟩ := Toy.delivered
  rw [openedPackets, List.length_map] at hlen
  have hlast : 5 < (handledPackets l.client.log).length := by omega
  have hechoes := (run_synchronised (by decide +kernel) (by decide +kernel) hl hs hc).1
  obtain ⟨i, hi, harrives⟩ := hechoes 5 _ _ (List.getElem?_eq_getElem hlast)
  exact ⟨l, _, _, i, hl, List.getElem?_eq_getElem hlast, hi, harrives⟩

/-- An end that has handled everything receives with the key, and expects the
    sequence number, that the other end sends with; and while either end has no key
    exchange running, the two have the same session id. -/
theorem run_agrees [CryptoLaws] (hs : OneLine server.ident) (hc : OneLine client.ident)
    (h : run server client rngS rngC acts = some l) (hfitS : LengthsFit l.server.log)
    (hfitC : LengthsFit l.client.log) :
    (openedPackets l.client.log = sealedPackets l.server.log →
      l.client.now.recvLine = l.server.now.sendLine) ∧
    (openedPackets l.server.log = sealedPackets l.client.log →
      l.server.now.recvLine = l.client.now.sendLine) ∧
    (l.server.now.kex = none ∨ l.client.now.kex = none →
      l.server.now.sessionId = l.client.now.sessionId) := by
  obtain ⟨fd, fu, hl⟩ := (run_linked hs hc h hfitS hfitC).coupled
  exact ⟨hl.down.arrived, hl.up.arrived, hl.joint.sessionId_eq⟩

omit [CryptoLib] in
theorem run_agrees_delivered : ∃ l, @run Toy.lib Toy.server Toy.client Toy.rng Toy.otherRng
      Toy.deliveries = some l ∧
    l.client.now.recvLine = l.server.now.sendLine ∧
    l.server.now.recvLine = l.client.now.sendLine ∧
    l.server.now.sessionId = l.client.now.sessionId := by
  let _ := Toy.lib
  have _ := Toy.laws
  obtain ⟨l, hl, hs, hc, hdown, hup, -, -, -, hkex, -⟩ := Toy.delivered
  obtain ⟨hclient, hserver, hid⟩ :=
    run_agrees (by decide +kernel) (by decide +kernel) hl hs.withinMax.lengthsFit hc.withinMax.lengthsFit
  exact ⟨l, hl, hclient hdown, hserver hup, hid (.inr hkex)⟩

/-- In every state that a run reaches, taking a packet does not fail at an end
    whose peer keeps to the limit: no length is refused, no tag is wrong, no
    padding is bad.  It waits for more bytes, or returns the next payload of the
    other end. -/
theorem run_takes [CryptoLaws] (hs : OneLine server.ident) (hc : OneLine client.ident)
    (h : run server client rngS rngC acts = some l) (hfitS : LengthsFit l.server.log)
    (hfitC : LengthsFit l.client.log) :
    (WithinMax l.server.log → l.client.now.identInDone = true → (takePacket l.client).Sat
      (fun r _ => r = none ∨ ∃ p, r = some p ∧
        openedPackets l.client.log ++ [(l.client.now.recvLine, p)] <+: sealedPackets l.server.log)
      (fun _ _ => False)) ∧
    (WithinMax l.client.log → l.server.now.identInDone = true → (takePacket l.server).Sat
      (fun r _ => r = none ∨ ∃ p, r = some p ∧
        openedPackets l.server.log ++ [(l.server.now.recvLine, p)] <+: sealedPackets l.client.log)
      (fun _ _ => False)) := by
  obtain ⟨fd, fu, hl⟩ := (run_linked hs hc h hfitS hfitC).coupled
  exact ⟨hl.down.takes, hl.up.takes⟩

omit [CryptoLib] in
theorem run_takes_delivered : ∃ l, @run Toy.lib Toy.server Toy.client Toy.rng Toy.otherRng
      Toy.deliveries = some l ∧
    (@takePacket Toy.lib l.client).Sat
      (fun r _ => r = none ∨ ∃ p, r = some p ∧
        openedPackets l.client.log ++ [(l.client.now.recvLine, p)] <+: sealedPackets l.server.log)
      (fun _ _ => False) := by
  let _ := Toy.lib
  have _ := Toy.laws
  obtain ⟨l, hl, hs, hc, -, -, -, -, -, -, hident, -⟩ := Toy.delivered
  have htakes := run_takes (by decide +kernel) (by decide +kernel) hl hs.withinMax.lengthsFit
    hc.withinMax.lengthsFit
  exact ⟨l, hl, htakes.1 hs.withinMax hident⟩

end Link

end Ssproxy
