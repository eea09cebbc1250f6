/-
  Ssproxy.Flood

  How long the write backlog gets.  Data is sealed below the soft limit only, so
  that it makes the backlog no longer than a bound that the configuration
  determines.  All other messages have priority: `queue_msg` takes them whatever
  the backlog is, and a peer that never reads can ask for as many of them as it
  likes, for example by PING.

  - `controlBacklog`: the bytes sealed since the last data packet.
  - `Tame`: the backlog is within the bound, but for these bytes.
-/

import Ssproxy.Backlog
import Ssproxy.Fragments
import Ssproxy.Framing
import Ssproxy.Outflow
import Ssproxy.Receivable

namespace Ssproxy

open Lib Wire Connection Relation

-- ============================================================================
-- The bytes of the other messages
-- ============================================================================

/-- The bytes sealed since the last data packet, after one more observation. -/
def Obs.controlBytes (n : Nat) : Obs → Nat
  | queued _ _ payload wire =>
      if payload.head? = some MsgType.channelData.code then 0 else n + wire.length
  | _ => n

/-- The bytes of the packets sealed since the last CHANNEL_DATA packet, or since
    the start. -/
def controlBacklog (log : List Obs) : Nat := log.foldl Obs.controlBytes 0

theorem controlBacklog_append (l l' : List Obs) :
    controlBacklog (l ++ l') = l'.foldl Obs.controlBytes (controlBacklog l) := by
  unfold controlBacklog
  rw [List.foldl_append]

/-- Other observations do not count. -/
theorem controlBacklog_rest {l new : List Obs} (h : ∀ o ∈ new, o.isQueued = false) :
    controlBacklog (l ++ new) = controlBacklog l := by
  rw [controlBacklog_append]
  generalize controlBacklog l = n
  induction new with
  | nil => rfl
  | cons o new ih =>
    have ho := h o List.mem_cons_self
    have hone : Obs.controlBytes n o = n := by
      cases o with
      | queued b owner payload wire => cases ho
      | _ => rfl
    rw [List.foldl_cons, hone]
    exact ih fun o' ho' => h o' (List.mem_cons_of_mem _ ho')

/-- The longest packet with data: the frame of 256 KiB of data, and the tag. -/
def dataPacketMax : Nat := pendingMax + 49

/-- What the backlog is bounded by, but for the bytes of the other messages. -/
def Setup.backlogBound (setup : Setup) : Nat :=
  setup.identLine.length + (match setup with
    | .server cfg => cfg.writeBufSoft
    | .client cfg => cfg.writeBufSoft) + dataPacketMax

/-- The payloads of data packets. -/
def Chunky (payload : Bytes) : Prop := payload.length ≤ 9 + pendingMax

/-- The backlog is within the bound. -/
structure Tame (soft bound : Nat) (c : Conn) : Prop where
  soft : c.now.writeSoft = soft
  balanced : Balanced c.now
  held : c.now.held.length ≤ bound + controlBacklog c.log

variable [CryptoLib] {c c' : Conn} {soft bound : Nat}

/-- A packet is at most this much longer than its payload. -/
theorem DirectionKeys.length_sealed {c : Connection} {payload pkt tag : Bytes}
    {cipher : DirectionKeys} (hs : c.sendCipher.sealBuf c.sendSeq (c.frame payload)
      (List.replicate c.sendCipher.kind.tagLen 0) = .ok (cipher, pkt, tag)) :
    (pkt ++ tag).length ≤ payload.length + 40 := by
  obtain ⟨hpkt, htag⟩ := DirectionKeys.sealBuf_length hs
  have hpad := c.padFor_le payload
  have hkind : c.sendCipher.kind.tagLen ≤ 16 := by
    cases c.sendCipher.kind <;> decide
  rw [length_frame] at hpkt
  rw [List.length_replicate] at htag
  rw [List.length_append]
  omega

/-- One elementary move of the sending side. -/
theorem Tame.outgo (h : Tame soft bound c) (hbound : soft + dataPacketMax ≤ bound)
    (hm : Outgo Chunky c c') : Tame soft bound c' := by
  have hbalanced := hm.feeds.balanced h.balanced
  cases hm with
  | rest hs hlog hnew =>
    have houtbox : c'.now.outbox = c.now.outbox :=
      congrArg (fun s => Outbox.mk s.ident s.current s.isIdent s.queue s.bytes) hs
    refine ⟨(congrArg Sender.soft hs).trans h.soft, hbalanced, ?_⟩
    rw [held_congr houtbox, hlog, controlBacklog_rest hnew]
    exact h.held
  | @queue _ owner payload hq hdata =>
    cases hq with
    | @mk cipher pkt tag hne hseal =>
      have hlen := DirectionKeys.length_sealed hseal
      have hheld : (c.now.sealed payload cipher (pkt ++ tag)).held = c.now.held ++ (pkt ++ tag) := by
        simp [Connection.held, sealed]
      refine ⟨h.soft, hbalanced, ?_⟩
      rw [hheld, List.length_append, controlBacklog_append, List.foldl_cons, List.foldl_nil]
      simp only [Obs.controlBytes]
      split
      · -- the backlog was below the soft limit
        rename_i hm
        obtain ⟨hroom, hchunk⟩ := hdata hm
        rw [h.balanced.queued.1, h.soft] at hroom
        simp only [Chunky] at hchunk
        simp only [dataPacketMax] at hbound
        omega
      · have := h.held
        omega
  | install pk => exact ⟨h.soft, hbalanced, h.held⟩
  | pull =>
    have hpull := pulls_pullCurrentOut c.now
    refine ⟨?_, hbalanced, ?_⟩
    · obtain ⟨ident, out, isIdent, q, heq⟩ := c.now.pullCurrentOut_eq
      rw [heq]
      exact h.soft
    · rw [hpull.held]
      exact h.held

theorem Tame.outgoes (h : Tame soft bound c) (hbound : soft + dataPacketMax ≤ bound)
    (hm : Outgoes Chunky c c') : Tame soft bound c' :=
  hm.induct (R := fun c c' => Tame soft bound c → Tame soft bound c') (fun _ h => h)
    (fun _ _ _ h h' ht => h' (h ht)) (fun _ _ hone ht => ht.outgo hbound hone) h

/-- Any move. -/
theorem Tame.move (h : Tame soft bound c) (hbound : soft + dataPacketMax ≤ bound)
    (hD : Carries Chunky c.now) (hm : Move c c') : Tame soft bound c' := by
  have hbalanced := hm.balanced h.balanced
  have hsettings := hm.settings
  rcases hm.outgoes hD with hout | ⟨b, m, hb, rfl⟩
  · exact h.outgoes hbound hout
  · have hpull := pulls_pullCurrentOut c.now
    have hdrain := held_drained (n := min m b.length) hb
    rw [hpull.held] at hdrain
    refine ⟨(congrArg Settings.writeSoft hsettings).trans h.soft, hbalanced, ?_⟩
    have hlen := congrArg List.length hdrain
    rw [List.length_append] at hlen
    have := h.held
    dsimp only
    omega

/-- What a reachable connection may seal as data is no longer than 256 KiB. -/
theorem Setup.Reaches.chunky {setup : Setup} (h : setup.Reaches c) : Carries Chunky c.now where
  direct r chunk hlen := by
    rw [Chunky, length_channelData]
    omega
  pending id ch front queue r n hch hp := by
    obtain ⟨hexact, -, hbound, -⟩ := h.pending_bounded hch
    rw [hp, List.map_cons, List.sum_cons] at hexact
    rw [Chunky, length_channelData, List.length_take, pendingMax]
    omega

omit [CryptoLib] in
/-- A connection that has sealed nothing yet. -/
theorem Setup.blank_tame (setup : Setup) (rng : Rng) :
    Tame (setup.blank rng).writeSoft setup.backlogBound ⟨setup.blank rng, []⟩ ∧
      (setup.blank rng).writeSoft + dataPacketMax ≤ setup.backlogBound := by
  have hfifo := setup.blank_fifo rng
  have horder : (setup.blank rng).held = setup.identLine := by
    have h := hfifo.order
    simpa [sealedBytes] using h
  have hbound : setup.identLine.length + (setup.blank rng).writeSoft + dataPacketMax
      = setup.backlogBound := by
    cases setup <;> rfl
  refine ⟨⟨rfl, hfifo.balanced, ?_⟩, by omega⟩
  dsimp only
  rw [horder]
  omega

/-- In every state a run gets into, the backlog is within a bound that the
    configuration determines, but for the bytes of the packets sealed since the
    last data packet. -/
theorem Setup.Reaches.backlog_bounded {setup : Setup} (h : setup.Reaches c) :
    c.now.queuedWriteBytes ≤ setup.backlogBound + controlBacklog c.log := by
  obtain ⟨rng, c0, hstart, hmoves⟩ := h
  obtain ⟨hblank, hbound⟩ := setup.blank_tame rng
  have htame : Tame (setup.blank rng).writeSoft setup.backlogBound c := by
    induction hmoves with
    | refl => exact hblank.outgoes hbound hstart.outgoes
    | tail hpre hmove ih =>
      exact ih.move hbound (Setup.Reaches.chunky ⟨rng, c0, hstart, hpre⟩) hmove
  rw [htame.balanced.queued.1]
  exact htame.held

/-- A client that sent one byte on a channel, and reads nothing. -/
def sentOne : List Call :=
  [.recv (Toy.identLine ++ Toy.clearPacket Msg.userauthSuccess), .processIn,
    .openDirectTcpip "h" 80, .recv (Toy.clearPacket (Msg.openConfirmation 0 5 1000 1000)),
    .processIn, .sendData 0 [97]]

omit [CryptoLib] in
/-- Just after a data packet, the bound is all there is. -/
theorem Setup.Reaches.backlog_bounded_sentOne : ∃ c,
    @Setup.run Toy.lib (.client Toy.client) Toy.rng sentOne = .ok () c ∧
      0 < c.now.queuedWriteBytes ∧
      c.now.queuedWriteBytes ≤ (Setup.client Toy.client).backlogBound := by
  have hpass : (@Setup.run Toy.lib (.client Toy.client) Toy.rng sentOne).passes (fun c =>
      decide (0 < c.now.queuedWriteBytes) && decide (controlBacklog c.log = 0)) = true := by
    decide +kernel
  obtain ⟨_, c, hrun, hc⟩ := Outcome.exists_of_passes hpass
  rw [Bool.and_eq_true] at hc
  have hle := @Setup.Reaches.backlog_bounded Toy.lib c _ (@Setup.Reaches.of_run Toy.lib _ _ _ _ hrun)
  rw [of_decide_eq_true hc.2] at hle
  exact ⟨c, hrun, of_decide_eq_true hc.1, hle⟩

-- ============================================================================
-- A flood of PINGs
-- ============================================================================

/-- A packet with an empty PING. -/
def pingPacket : Bytes := Toy.clearPacket [MsgType.ping.code]

/-- A peer that sends its ident line and `n` PINGs, and reads nothing. -/
def pingFlood : Nat → List Call
  | 0 => [.recv Toy.identLine, .processIn]
  | n + 1 => pingFlood n ++ [.recv pingPacket] ++ [.processIn]

/-- A connection in its first key exchange that answers PINGs. -/
structure Answering (c : Connection) : Prop where
  ident : c.identInDone = true
  buf : c.readBuf = []
  recv : c.recvCipher = .clear
  «send» : c.sendCipher = .clear
  strict : c.strictKex = false
  auth : c.authed = false
  channels : c.channels.iterIds = []

/-- The PING arrives whole. -/
theorem pingPacket_arrived {x : Connection} (hbuf : x.readBuf = pingPacket)
    (hrecv : x.recvCipher = .clear) :
    Arrived x 12 10 [MsgType.ping.code] .clear pingPacket [] [] := by
  refine ⟨?_, by decide, ?_, ?_, by decide, ⟨List.replicate 10 0, by decide, ?_⟩, by decide,
    by decide⟩
  · rw [hbuf, List.append_nil, List.append_nil]
  · rw [hrecv]
    rfl
  · rw [hrecv]
    rfl
  · rw [hrecv]
    rfl

/-- A PING without data is answered. -/
theorem handlePayload_ping (c : Conn) : handlePayload [MsgType.ping.code] c
    = queueMsg none (MsgType.pong.code :: putBytes []) true c := rfl

/-- One PING, and the backlog is longer. -/
theorem Answering.ping (h : Answering c.now) : ∃ c',
    processIn ⟨{ c.now with readBuf := c.now.readBuf ++ pingPacket }, c.log⟩ = .ok () c' ∧
      Answering c'.now ∧ c.now.queuedWriteBytes < c'.now.queuedWriteBytes := by
  generalize hc1 : (⟨{ c.now with readBuf := c.now.readBuf ++ pingPacket }, c.log⟩ : Conn) = c1
  have harrived : Arrived c1.now 12 10 [MsgType.ping.code] .clear pingPacket [] [] := by
    rw [← hc1]
    exact pingPacket_arrived (by rw [h.buf]; rfl) h.recv
  have hfirst := tryOnePacket_apply harrived (by simp [IsMsg]; decide)
    (by rw [← hc1]; simp [h.strict])
  rw [handlePayload_ping] at hfirst
  generalize hc2 : (⟨c1.now.received .clear [] (pingPacket ++ []).length,
    c1.log ++ [.handled c1.now [MsgType.ping.code]]⟩ : Conn) = c2 at hfirst
  obtain ⟨c3, hq, hqueues⟩ := (queueMsg_short none (MsgType.pong.code :: putBytes []) c2
    (by simp) (by simp)).exists_ok
  rw [hq, Outcome.bind_ok] at hfirst
  have hgrown := queued_lt_of_queues hqueues
  have hanswering : Answering c3.now := by
    cases hqueues with
    | @mk cipher pkt tag hne hseal =>
      have hclear : c2.now.sendCipher = .clear := by
        rw [← hc2, ← hc1]
        exact h.send
      rw [hclear] at hseal
      cases hseal
      rw [← hc2, ← hc1]
      exact ⟨h.ident, rfl, rfl, rfl, h.strict, h.auth, h.channels⟩
  have hlast : tryOnePacket c3 = .ok false c3 := by
    unfold tryOnePacket
    rw [Proc.bind_of_ok (Traced.read_apply c3), Proc.bind_of_ok (takePacket_of_lacks (.inl _))]
    · rfl
    · rw [hanswering.buf]
      decide
  have hloop : Proc.loop tryOnePacket (c1.now.readBuf.length + 1) c1 = .ok () c3 := by
    refine (Proc.Ends.again hfirst (.stop hlast)).loop_eq ?_
    rw [harrived.buf]
    decide
  have hrekey : maybeRekey c3 = .ok () c3 := by
    unfold maybeRekey
    rw [Proc.bind_of_ok (Traced.read_apply c3), hanswering.auth]
    rfl
  have hflush : flushPendingAll c3 = .ok () c3 := by
    unfold flushPendingAll
    rw [Proc.bind_of_ok (Traced.read_apply c3), hanswering.channels, Proc.ite_apply]
    split <;> rfl
  have hident : c1.now.identInDone = true := by
    rw [← hc1]
    exact h.ident
  refine ⟨c3, ?_, hanswering, ?_⟩
  · unfold processIn
    rw [Proc.bind_of_ok (Traced.read_apply c1), hident]
    exact (Proc.bind_of_ok (Traced.read_apply c1)).trans
      ((Proc.bind_of_ok hloop).trans ((Proc.bind_of_ok hrekey).trans hflush))
  · refine Nat.lt_of_le_of_lt (Nat.le_of_eq ?_) hgrown
    rw [← hc2, ← hc1]
    rfl

omit [CryptoLib] in
theorem answering_start : (@Setup.run Toy.lib (.server Toy.server) Toy.rng (pingFlood 0)).passes
    (fun c => c.now.identInDone && c.now.readBuf.isEmpty && decide (c.now.recvCipher = .clear)
      && decide (c.now.sendCipher = .clear) && !c.now.strictKex && !c.now.authed
      && c.now.channels.iterIds.isEmpty) = true := by
  decide +kernel

omit [CryptoLib] in
/-- Every PING makes the backlog longer. -/
theorem pingFlood_grows (n : Nat) {c : Conn}
    (hrun : @Setup.run Toy.lib (.server Toy.server) Toy.rng (pingFlood n) = .ok () c) :
    Answering c.now ∧ n ≤ c.now.queuedWriteBytes := by
  induction n generalizing c with
  | zero =>
    obtain ⟨_, c', hrun', hc⟩ := Outcome.exists_of_passes answering_start
    cases hrun.symm.trans hrun'
    simp only [Bool.and_eq_true, decide_eq_true_eq, Bool.not_eq_true', List.isEmpty_iff] at hc
    obtain ⟨⟨⟨⟨⟨⟨hident, hbuf⟩, hrecv⟩, hsend⟩, hstrict⟩, hauth⟩, hchannels⟩ := hc
    exact ⟨⟨hident, hbuf, hrecv, hsend, hstrict, hauth, hchannels⟩, Nat.zero_le _⟩
  | succ n ih =>
    obtain ⟨c2, hpre, hend⟩ := @Setup.run_snoc Toy.lib _ _ _ _ _ hrun
    obtain ⟨c1, hpre, hrecv⟩ := @Setup.run_snoc Toy.lib _ _ _ _ _ hpre
    obtain ⟨hanswering, hn⟩ := ih hpre
    cases hrecv
    obtain ⟨c', hping, hanswering', hgrown⟩ := @Answering.ping Toy.lib c1 hanswering
    rw [show (@Call.run Toy.lib .processIn _) = _ from hping] at hend
    cases hend
    exact ⟨hanswering', by omega⟩

omit [CryptoLib] in
/-- There is no bound on the backlog of a server. -/
theorem backlog_unbounded : ¬∀ (lib : CryptoLib) (cfg : ServerConfig), ∃ bound, ∀ c,
    @Setup.Reaches lib (.server cfg) c → c.now.queuedWriteBytes ≤ bound := by
  intro hclaim
  obtain ⟨bound, hbound⟩ := hclaim Toy.lib Toy.server
  obtain ⟨c, hrun⟩ := @Setup.exists_run Toy.lib (.server Toy.server) Toy.rng (pingFlood (bound + 1))
  have hle := hbound c (@Setup.Reaches.of_run Toy.lib _ _ _ _ hrun)
  have hge := (pingFlood_grows (bound + 1) hrun).2
  omega

end Ssproxy
