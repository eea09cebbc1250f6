/-
  Ssproxy.Outflow

  Data on its way out of a channel: how much may be deferred, what `send_data`
  takes of its argument, and how long the data packets are.
-/

import Ssproxy.Machine.Slots
import Ssproxy.Stream

namespace Ssproxy

open Lib Wire Connection Relation

variable [CryptoLib]

-- ============================================================================
-- What is deferred
-- ============================================================================

/-- The counter of `pending_out` is exact and within its bound, and no chunk is
    empty. -/
structure PendingOk (ch : Channel) : Prop where
  exact : ch.pendingOutBytes = (ch.pendingOut.map List.length).sum
  bound : ch.pendingOutBytes ≤ pendingMax
  chunks : ∀ chunk ∈ ch.pendingOut, chunk ≠ []

variable {id : UInt32} {x : Connection} {k : Cause} {ch ch' : Channel} {new : List Obs}

omit [CryptoLib] in
/-- A round of `flush_pending` takes no more than the counter says. -/
theorem PendingOk.front_le {front : Bytes} {queue : List Bytes} (h : PendingOk ch)
    (hp : ch.pendingOut = front :: queue) : front.length ≤ ch.pendingOutBytes := by
  rw [h.exact, hp, List.map_cons, List.sum_cons]
  exact Nat.le_add_right _ _

omit [CryptoLib] in
theorem PendingOk.flushed {front : Bytes} {queue : List Bytes} {n : Nat} (h : PendingOk ch)
    (hp : ch.pendingOut = front :: queue) : PendingOk (flushed ch front queue n) := by
  have hexact := h.exact
  have hbound := h.bound
  have hchunks := h.chunks
  rw [hp] at hchunks
  rw [hp, List.map_cons, List.sum_cons] at hexact
  unfold Ssproxy.flushed
  by_cases hn : n ≥ front.length
  · refine ⟨?_, ?_, ?_⟩
    · show _ - (front.take n).length = _
      rw [List.take_of_length_le hn]
      dsimp only
      rw [if_pos hn]
      omega
    · dsimp only
      omega
    · dsimp only
      rw [if_pos hn]
      exact fun chunk hmem => hchunks chunk (List.mem_cons_of_mem _ hmem)
  · refine ⟨?_, ?_, ?_⟩
    · dsimp only
      rw [if_neg hn, List.map_cons, List.sum_cons, List.length_take, List.length_drop]
      omega
    · dsimp only
      omega
    · dsimp only
      rw [if_neg hn]
      intro chunk hmem
      rcases List.mem_cons.mp hmem with rfl | hmem
      · rw [Ne, List.drop_eq_nil_iff]
        exact hn
      · exact hchunks chunk (List.mem_cons_of_mem _ hmem)

omit [CryptoLib] in
theorem Fresh.pendingOk (h : Fresh id x k ch new) : PendingOk ch := by
  cases h with
  | peer hm hev => exact ⟨rfl, Nat.zero_le _, fun _ hmem => absurd hmem List.not_mem_nil⟩
  | here hrole hnew => exact ⟨rfl, Nat.zero_le _, fun _ hmem => absurd hmem List.not_mem_nil⟩

omit [CryptoLib] in
theorem Act.pendingOk (h : Act id x ch k ch' new) (hp : PendingOk ch) : PendingOk ch' := by
  cases h with
  | @defer data chunk hne hroom hgate =>
    refine ⟨?_, hroom, ?_⟩
    · simp [hp.exact]
    · intro chunk' hmem
      rcases List.mem_append.mp hmem with hmem | hmem
      · exact hp.chunks chunk' hmem
      · rw [List.mem_singleton.mp hmem]
        exact hne
  | flush hcan hq hne => exact hp.flushed hq
  | flushLost hcan hq hne hlimits => exact hp.flushed hq
  | _ => exact ⟨hp.exact, hp.bound, hp.chunks⟩

/-- In every state a run gets into, the counter of the deferred data of every
    channel is exact, no subtraction from it saturates, it stays within 256 KiB,
    and no chunk is empty. -/
theorem Setup.Reaches.pending_bounded {setup : Setup} {c : Conn} (h : setup.Reaches c)
    (hch : c.now.channels.get? id = some ch) :
    ch.pendingOutBytes = (ch.pendingOut.map List.length).sum ∧
      (∀ front queue, ch.pendingOut = front :: queue →
        (front.take (flushTake ch front)).length ≤ ch.pendingOutBytes) ∧
      ch.pendingOutBytes ≤ 256 * 1024 ∧ ∀ chunk ∈ ch.pendingOut, chunk ≠ [] := by
  have hok : PendingOk ch := h.channel (R := PendingOk) (G := fun _ => True) hch
    (fun _ _ _ _ hf _ => hf.pendingOk) (fun _ _ _ _ _ _ hp ha _ => ha.pendingOk hp)
    fun _ _ => trivial
  refine ⟨hok.exact, fun front queue hp => ?_, hok.bound, hok.chunks⟩
  have hle := hok.front_le hp
  rw [List.length_take]
  omega

/-- A byte sent while the gate is closed. -/
def Setup.deferOne : List Call :=
  [.recv (Setup.channelPeer 1000), .processIn, .confirmOpen 0, .consumeOut 21, .sendData 0 [97]]

omit [CryptoLib] in
/-- It is deferred, and more would be. -/
theorem Setup.deferOne_run : ∃ c ch,
    @Setup.run Toy.lib (.server Toy.server) Toy.rng deferOne = .ok () c ∧
      c.now.channels.get? 0 = some ch ∧ ch.pendingOut = [[97]] ∧
      2 ≤ c.now.outboundAllowance 0 ∧ c.now.writeSoft ≤ c.now.writeHard := by
  have hpass : (@Setup.run Toy.lib (.server Toy.server) Toy.rng deferOne).passes (fun c =>
      ((c.now.channels.get? 0).any fun ch => decide (ch.pendingOut = [[97]])) &&
        decide (2 ≤ c.now.outboundAllowance 0 ∧ c.now.writeSoft ≤ c.now.writeHard)) = true := by
    decide +kernel
  obtain ⟨_, c, hrun, hc⟩ := Outcome.exists_of_passes hpass
  rw [Bool.and_eq_true, Option.any_eq_true] at hc
  obtain ⟨⟨ch, hch, hp⟩, hlimits⟩ := hc
  exact ⟨c, ch, hrun, hch, of_decide_eq_true hp, of_decide_eq_true hlimits⟩

omit [CryptoLib] in
theorem Setup.Reaches.pending_bounded_deferOne : ∃ c ch,
    @Setup.run Toy.lib (.server Toy.server) Toy.rng deferOne = .ok () c ∧
      c.now.channels.get? 0 = some ch ∧ ch.pendingOut = [[97]] ∧ ch.pendingOutBytes = 1 := by
  obtain ⟨c, ch, hrun, hch, hp, -⟩ := deferOne_run
  refine ⟨c, ch, hrun, hch, hp, ?_⟩
  rw [(@Setup.Reaches.pending_bounded Toy.lib 0 ch _ c (@Reaches.of_run Toy.lib _ _ _ c hrun) hch).1, hp]
  rfl

-- ============================================================================
-- What send_data takes
-- ============================================================================

/-- The bytes deferred on channel `id`. -/
def Connection.pendingBytes (c : Connection) (id : UInt32) : Nat :=
  ((c.channels.get? id).map (·.pendingOutBytes)).getD 0

/-- The bytes of one observation that went out of channel `id`. -/
def Obs.dataBytes (id : UInt32) : Obs → Nat
  | queued _ owner p _ => if owner = some id ∧ IsMsg .channelData p then (p.drop 9).length else 0
  | _ => 0

/-- The bytes that went out of channel `id` in CHANNEL_DATA packets. -/
def dataQueued (id : UInt32) (l : List Obs) : Nat := (l.map (Obs.dataBytes id)).sum

variable {c c' c1 : Conn}

omit [CryptoLib] in
theorem Connection.pendingBytes_of_get? {c : Connection} (h : c.channels.get? id = some ch) :
    c.pendingBytes id = ch.pendingOutBytes := by
  rw [pendingBytes, h]
  rfl

/-- Every byte of the rounds of `send_data` went out or is deferred. -/
theorem SendsData.counts {chunks : List Bytes} (h : SendsData id c chunks c') :
    c.now.pendingBytes id ≤ c'.now.pendingBytes id ∧ ∃ new, c'.log = c.log ++ new ∧
      dataQueued id new + c'.now.pendingBytes id
        = chunks.flatten.length + c.now.pendingBytes id := by
  induction h with
  | done c => exact ⟨Nat.le_refl _, [], by simp [dataQueued]⟩
  | @defer c c' ch chunk chunks hch hne hallow hgate htail ih =>
    obtain ⟨hle, new, hlog, hcount⟩ := ih
    have hput : (withChannel c id { ch with
        pendingOutBytes := ch.pendingOutBytes + chunk.length
        pendingOut := ch.pendingOut ++ [chunk] }).now.pendingBytes id
        = c.now.pendingBytes id + chunk.length := by
      rw [pendingBytes_of_get? hch]
      exact pendingBytes_of_get? (c := (withChannel c id _).now) (ChannelTable.get?_set_self hch)
    rw [hput] at hle hcount
    refine ⟨by omega, new, hlog, ?_⟩
    rw [hcount, List.flatten_cons, List.length_append]
    omega
  | @wire c c1 c' ch r chunk chunks hch hne hallow hgate hr hq htail ih =>
    obtain ⟨hle, new, hlog, hcount⟩ := ih
    have hput : c1.now.pendingBytes id = c.now.pendingBytes id := by
      rw [pendingBytes_of_get? hch]
      have hget : c1.now.channels.get? id = some { ch with
          sendWindow := ch.sendWindow - UInt32.ofNat chunk.length } := by
        rw [hq.channels]
        exact ChannelTable.get?_set_self hch
      have hbytes := pendingBytes_of_get? hget
      exact hbytes
    obtain ⟨w, hw⟩ := hq.log
    rw [hput] at hle hcount
    refine ⟨hle, .queued (withChannel c id { ch with
      sendWindow := ch.sendWindow - UInt32.ofNat chunk.length }).now (some id)
        (Msg.channelData r chunk) w :: new, ?_, ?_⟩
    · rw [hlog, hw, List.append_assoc]
      rfl
    · have hdata : ∀ b, Obs.dataBytes id (.queued b (some id) (Msg.channelData r chunk) w)
          = chunk.length := by
        intro b
        rw [Obs.dataBytes, if_pos ⟨rfl, isMsg_channelData r chunk⟩, drop_channelData]
      rw [dataQueued, List.map_cons, List.sum_cons, hdata, ← dataQueued, List.flatten_cons,
        List.length_append]
      omega

omit [CryptoLib] in
/-- A packet is refused only where the hard limit is below the soft one. -/
theorem Connection.SendLost.limits (h : SendLost id c c') : c.now.writeHard < c.now.writeSoft := by
  obtain ⟨ch, n, r, rng, -, -, -, hsoft, hhard, -⟩ := h
  exact Nat.lt_of_le_of_lt hhard hsoft

/-- With the soft limit not above the hard one, `send_data` does not fail and
    takes at least what the allowance says; what it takes is on the wire or
    deferred.  It stops only when all is taken or nothing more is allowed.  No
    data packet is refused for the backlog, in `flush_pending` neither: a round
    with something to send goes on. -/
theorem sendData_honest (c : Conn) (hlimits : c.now.writeSoft ≤ c.now.writeHard) (id : UInt32)
    (data : Bytes) :
    (∃ n c' new, sendData id data c = .ok n c' ∧
      min data.length (c.now.outboundAllowance id) ≤ n ∧ n ≤ data.length ∧
      (n = data.length ∨ c'.now.outboundAllowance id = 0) ∧ c'.log = c.log ++ new ∧
      c.now.pendingBytes id ≤ c'.now.pendingBytes id ∧
      n = dataQueued id new + (c'.now.pendingBytes id - c.now.pendingBytes id)) ∧
    ∀ ch, c.now.channels.get? id = some ch → Flushable c.now ch →
      ∃ c', flushOnce id c = .ok true c' := by
  refine ⟨?_, ?_⟩
  · have hsat := sendData_sat id data c
    cases hsend : sendData id data c with
    | panic => exact absurd hsend hsat.ne_panic
    | err e c' =>
      obtain ⟨chunks, c1, hs, hlost⟩ := hsat.of_err hsend
      have hset := hs.extends.settings
      have hsoft : c1.now.writeSoft = c.now.writeSoft := congrArg (·.writeSoft) hset
      have hhard : c1.now.writeHard = c.now.writeHard := congrArg (·.writeHard) hset
      have := Connection.SendLost.limits hlost
      omega
    | ok n c' =>
      obtain ⟨⟨chunks, hs, hn, hflat⟩, hstop, htakes⟩ := hsat.of_ok hsend
      obtain ⟨hle, new, hlog, hcount⟩ := hs.counts
      refine ⟨n, c', new, rfl, htakes, hn, hstop, hlog, hle, ?_⟩
      rw [hflat, List.length_take] at hcount
      omega
  · rintro ch hch ⟨r, front, queue, hcan, hp, hne⟩
    have hsat := flushOnce_send id hch hcan hp hne
    cases hround : flushOnce id c with
    | panic => exact absurd hround hsat.ne_panic
    | err e c' => exact (hsat.of_err hround).elim
    | ok again c' =>
      obtain ⟨-, -, -, hrefused, -⟩ := hsat.of_ok hround
      cases again with
      | true => exact ⟨c', rfl⟩
      | false =>
        have := (hrefused rfl).1
        have := hcan.room
        have := writeBytes_le_queued c.now
        omega

omit [CryptoLib] in
theorem sendData_honest_deferOne : ∃ c c',
    @Setup.run Toy.lib (.server Toy.server) Toy.rng Setup.deferOne = .ok () c ∧
      @sendData Toy.lib 0 [98, 99] c = .ok 2 c' := by
  obtain ⟨c, ch, hrun, -, -, hallow, hlimits⟩ := Setup.deferOne_run
  obtain ⟨⟨n, c', new, hok, hmin, hmax, -⟩, -⟩ := @sendData_honest Toy.lib c hlimits 0 [98, 99]
  have hn : n = 2 := by
    have hlen : ([98, 99] : Bytes).length = 2 := rfl
    omega
  exact ⟨c, c', hrun, hn ▸ hok⟩

-- ============================================================================
-- The loop of flush_pending
-- ============================================================================

/-- The loop of `flush_pending` ends, in every state: a round that goes on has
    queued a packet, and a packet brings the backlog at least one byte closer
    to the soft limit.  The fuel of the model is therefore never used up. -/
theorem flushPending_ends (id : UInt32) (c : Conn) :
    if c.now.kexBlocksApp then flushPending id c = .ok () c
    else
      (∃ n ≤ c.now.writeSoft - c.now.queuedWriteBytes, ∃ c',
        Proc.Ends (flushOnce id) n c c' ∧ flushPending id c = .ok () c') ∧
      ¬ ∃ run : Nat → Conn, run 0 = c ∧ ∀ i, flushOnce id (run i) = .ok true (run (i + 1)) := by
  split
  · next hgate =>
    rw [flushPending, Proc.bind_of_ok (Traced.read_apply c), Proc.ite_apply, if_pos hgate]
    rfl
  · next hgate =>
    obtain ⟨n, hn, c', hends⟩ := Proc.exists_ends
      (I := fun c => c.now.kexBlocksApp = false)
      (μ := fun c => c.now.writeSoft - c.now.queuedWriteBytes)
      (fun c hg => (flushOnce_sat id c hg).mono
        (fun again c' h hagain => ⟨h.2.1, by
          obtain ⟨hsoft, hlt, hroom⟩ := h.2.2 hagain
          omega⟩) fun _ _ h => h)
      (eq_false_of_ne_true hgate) (Nat.le_refl _)
    refine ⟨⟨n, hn, c', hends, ?_⟩, hends.not_forever⟩
    rw [flushPending, Proc.bind_of_ok (Traced.read_apply c), Proc.ite_apply, if_neg hgate]
    exact hends.loop_eq (Nat.lt_succ_of_le hn)

end Ssproxy
