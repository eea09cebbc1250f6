/-
  Ssproxy.Machine.Frame

  What the moves leave alone.  The control part of a connection is everything
  but its buffers, counters, channels, events and the inner state of its
  ciphers; sealing and opening packets and all channel work keep it.
-/

import Ssproxy.Machine.Packet

namespace Ssproxy

open Lib Wire Connection

-- ============================================================================
-- The control part
-- ============================================================================

/-- A connection with its data blanked out, and the kinds of its ciphers. -/
structure Control where
  conn : Connection
  sendKind : CipherKind
  recvKind : CipherKind

/-- The control part of a connection. -/
def Connection.control (c : Connection) : Control where
  conn :=
    { c with
      identAcc := []
      identOut := none
      readBuf := []
      sendSeq := 0
      recvSeq := 0
      sendCipher := .clear
      recvCipher := .clear
      bytesIo := 0
      packetsIo := 0
      writeQ := []
      currentOut := none
      currentIsIdent := false
      writeBytes := 0
      channels := .new 0
      events := []
      rr := 0
      rng := ⟨fun _ => 0, 0⟩ }
  sendKind := c.sendCipher.kind
  recvKind := c.recvCipher.kind

variable [CryptoLib] {c c' c1 : Conn} {owner : Option UInt32} {payload p : Bytes}

-- ============================================================================
-- Packets keep the control part and the channels
-- ============================================================================

theorem Queues.control (h : Queues owner payload c c') : c'.now.control = c.now.control := by
  cases h with
  | mk hne hseal =>
    simp only [Connection.control, Connection.sealed, DirectionKeys.sealBuf_kind hseal]

theorem Queues.channels (h : Queues owner payload c c') : c'.now.channels = c.now.channels := by
  cases h
  rfl

/-- What was sealed was not too long. -/
theorem Queues.fits (h : Queues owner payload c c') : ¬c.now.TooLong payload := by
  cases h with
  | mk hne hseal =>
    intro hlong
    obtain ⟨e, he⟩ := (c.now.seal_refuses payload).mpr hlong
    rw [hseal] at he
    cases he

theorem Queues.log (h : Queues owner payload c c') :
    ∃ wire, c'.log = c.log ++ [.queued c.now owner payload wire] := by
  cases h
  exact ⟨_, rfl⟩

omit [CryptoLib] in
theorem Draws.control (h : Draws c c') : c'.now.control = c.now.control := by
  cases h
  rfl

omit [CryptoLib] in
theorem Draws.channels (h : Draws c c') : c'.now.channels = c.now.channels := by
  cases h
  rfl

omit [CryptoLib] in
theorem Draws.log (h : Draws c c') : c'.log = c.log := by
  cases h
  rfl

theorem Sends.control (h : Sends owner payload c c') : c'.now.control = c.now.control := by
  rcases h with h | ⟨-, h⟩
  · exact h.control
  · exact h.control

theorem Sends.channels (h : Sends owner payload c c') : c'.now.channels = c.now.channels := by
  rcases h with h | ⟨-, h⟩
  · exact h.channels
  · exact h.channels

/-- What a received packet is known to be. -/
theorem Receives.opens (h : Receives p c c1) : ∃ cipher rest total,
    c.now.Opens p cipher rest total ∧ c.now.passes (p.headD 0) = true ∧
    c1 = ⟨(c.now.received cipher rest total).resetRecv p, c.log ++ [.handled c.now p]⟩ := by
  cases h with
  | mk htake hpass =>
    rcases (takePacket_sat c).of_ok htake with ⟨h, -, -⟩ | ⟨p', cipher, rest, total, hp, hopen, hc⟩
    · cases h
    · cases hp
      refine ⟨cipher, rest, total, hopen, hpass, ?_⟩
      rw [Traced.mk.injEq] at hc
      rw [hc.1]

omit [CryptoLib] in
theorem Connection.control_resetRecv (c : Connection) (p : Bytes) :
    (c.resetRecv p).control = c.control := by
  unfold resetRecv
  split <;> rfl

theorem Receives.control (h : Receives p c c1) : c1.now.control = c.now.control := by
  obtain ⟨cipher, rest, total, hopen, -, rfl⟩ := h.opens
  rw [control_resetRecv]
  simp only [Connection.control, received, hopen.kind]

theorem Receives.channels (h : Receives p c c1) : c1.now.channels = c.now.channels := by
  obtain ⟨cipher, rest, total, -, -, rfl⟩ := h.opens
  simp only [resetRecv]
  split <;> rfl

theorem Receives.rng (h : Receives p c c1) : c1.now.rng = c.now.rng := by
  obtain ⟨cipher, rest, total, -, -, rfl⟩ := h.opens
  simp only [resetRecv]
  split <;> rfl

theorem Receives.log (h : Receives p c c1) : c1.log = c.log ++ [.handled c.now p] := by
  obtain ⟨cipher, rest, total, -, -, rfl⟩ := h.opens
  rfl

theorem Receives.nonempty (h : Receives p c c1) : p ≠ [] := by
  obtain ⟨cipher, rest, total, hopen, -⟩ := h.opens
  exact hopen.nonempty

theorem SendsData.control {id : UInt32} {chunks : List Bytes} (h : SendsData id c chunks c') :
    c'.now.control = c.now.control := by
  induction h with
  | done c => rfl
  | defer hch hne hallow hgate htail ih => exact ih
  | wire hch hne hallow hgate hr hq htail ih => exact ih.trans hq.control

end Ssproxy
