/-
  Ssproxy.Refine.Channels

  The channel calls and the emitters behind them make `Step`s and nothing
  else: each function returns or fails after a sequence of steps, and does not
  panic.
-/

import Ssproxy.Machine.Invariant

namespace Ssproxy

open Lib Wire Connection Relation

/-- A call that makes its own step and nothing else. -/
theorem Step.called [CryptoLib] {c c' : Conn} {call : Call} (h : Step (.call call) c c') :
    Called call c c' :=
  .own h .refl

theorem StepsAt.steps [CryptoLib] {c c' : Conn} {id : UInt32} (h : StepsAt id c c') : Steps c c' :=
  ReflTransGen.mono (fun _ _ hs => hs.1) c c' h

/-- A step that writes slot `id`. -/
theorem Step.at_set [CryptoLib] {c c' : Conn} {id : UInt32} {ch : Channel} (h : Step .own c c')
    (hch : c'.now.channels = c.now.channels.set id ch) : StepsAt id c c' := by
  refine .single ⟨h, fun j hj => ?_⟩
  rw [hch, ChannelTable.get?_set_ne hj]

/-- A step that empties slot `id`. -/
theorem Step.at_release [CryptoLib] {c c' : Conn} {id : UInt32} (h : Step .own c c')
    (hch : c'.now.channels = c.now.channels.release id) : StepsAt id c c' := by
  refine .single ⟨h, fun j hj => ?_⟩
  rw [hch, ChannelTable.get?_release_ne _ hj]

namespace Connection

-- ============================================================================
-- Primitives
-- ============================================================================

section Primitives

variable {c : Conn} {id : UInt32} {ch : Channel}

theorem getChannel_some (h : c.now.channels.get? id = some ch) : getChannel id c = .ok ch c := by
  simp [getChannel, ChannelTable.get, h]

theorem getChannel_none (h : c.now.channels.get? id = none) :
    getChannel id c = .err (.protocol "no such channel") c := by
  simp [getChannel, ChannelTable.get, h]

theorem unwrap_of_eq {α : Type} {o : Option α} {a : α} (h : o = some a) (c : Conn) :
    (Proc.unwrap o : ConnM α) c = .ok a c := by
  rw [h]
  rfl

theorem okOr_of_eq {α : Type} {o : Option α} {a : α} (h : o = some a) (e : Error) (c : Conn) :
    (Proc.okOr o e : ConnM α) c = .ok a c := by
  rw [h]
  rfl

@[simp] theorem setChannel_apply (id : UInt32) (ch : Channel) (c : Conn) :
    setChannel id ch c = .ok () (withChannel c id ch) := rfl

@[simp] theorem pushEvent_apply (ev : Event) (c : Conn) :
    pushEvent ev c = .ok () (withEvent c ev) := rfl

theorem freeChannel_apply (id : UInt32) (c : Conn) :
    freeChannel id c = .ok () (withoutChannel c id) := by
  unfold freeChannel
  simp only [Proc.bind_apply, Traced.read_apply, Outcome.bind_ok]
  cases h : c.now.channels.get? id with
  | none => simp [withoutChannel, dropChannel, ChannelTable.release_of_none h, h]
  | some ch => simp [withoutChannel, dropChannel, h]

@[simp] theorem withChannel_now_get (h : c.now.channels.get? id = some ch) (ch' : Channel) :
    (withChannel c id ch').now.channels.get? id = some ch' :=
  ChannelTable.get?_set_self h

end Primitives

variable [CryptoLib] {c c' : Conn}

theorem steps_trans {a b c : Conn} (h : Steps a b) (h' : Steps b c) : Steps a c := h.trans h'

theorem stepsAt_trans {id : UInt32} {a b c : Conn} (h : StepsAt id a b) (h' : StepsAt id b c) :
    StepsAt id a c := h.trans h'

/-- The part of a call after its own step. -/
theorem called_after {α : Type} {m : ConnM α} {c1 : Conn} {call : Call}
    (h : Step (.call call) c c1) (hm : Proc.Follows Steps m c1) :
    (m c1).Sat (fun _ c' => Called call c c') (fun _ c' => Called call c c') :=
  Outcome.Sat.mono hm (fun _ _ h' => .own h h') fun _ _ h' => .own h h'

/-- A call made after some steps. -/
theorem follows_at {α : Type} {m : ConnM α} {id : UInt32} {c1 : Conn} (h : StepsAt id c c1)
    (hm : Proc.Follows (StepsAt id) m c1) :
    (m c1).Sat (fun _ c' => StepsAt id c c') (fun _ c' => StepsAt id c c') :=
  Outcome.Sat.mono hm (fun _ _ h' => h.trans h') fun _ _ h' => h.trans h'

theorem follows_steps {α : Type} {m : ConnM α} {id : UInt32}
    (h : Proc.Follows (StepsAt id) m c) : Proc.Follows Steps m c :=
  Outcome.Sat.mono h (fun _ _ h' => StepsAt.steps h') fun _ _ h' => StepsAt.steps h'

-- ============================================================================
-- Data
-- ============================================================================

omit [CryptoLib] in
theorem length_channelData (r : UInt32) (data : Bytes) :
    (Msg.channelData r data).length = 9 + data.length := by
  simp [Msg.channelData]
  omega

omit [CryptoLib] in
theorem writeBytes_le_queued (c : Connection) : c.writeBytes ≤ c.queuedWriteBytes := by
  unfold queuedWriteBytes
  dsimp only
  omega

omit [CryptoLib] in
/-- With the gate open an allowance means that the channel may send at once. -/
theorem of_outboundAllowance_pos {c : Connection} {id : UInt32} {ch : Channel}
    (hch : c.channels.get? id = some ch) (hgate : c.kexBlocksApp = false)
    (hpos : 0 < c.outboundAllowance id) :
    ch.openConfirmed = true ∧ ch.sentEof = false ∧ ch.sentClose = false ∧
      c.queuedWriteBytes < c.writeSoft ∧
      c.outboundAllowance id ≤ ch.sendWindow.toNat ∧
      c.outboundAllowance id ≤ ch.maxRemotePacket.toNat := by
  unfold outboundAllowance at hpos ⊢
  simp only [hch, hgate] at hpos ⊢
  split at hpos
  · rename_i h
    cases h
  · split at hpos
    · omega
    · rename_i hsoft
      simp only [Channel.outboundAllowance] at hpos ⊢
      split at hpos
      · omega
      · rename_i hflags
        simp only [Bool.or_eq_true, not_or, Bool.not_eq_true', Bool.not_eq_false,
          Bool.not_eq_true] at hflags
        obtain ⟨⟨ho, he⟩, hc⟩ := hflags
        refine ⟨ho, he, hc, Nat.lt_of_not_le hsoft, ?_, ?_⟩
        all_goals
          simp only [ho, he, hc, hsoft, Bool.not_true, Bool.or_self, Bool.false_eq_true,
            if_false]
          omega

/-- A data packet is refused only on the backlog. -/
theorem sendChannelDataPkt_sat (id r : UInt32) {data : Bytes} (c : Conn)
    (hlen : data.length < 2 ^ 32) :
    (sendChannelDataPkt id r data c).Sat
      (fun _ c' => Queues (some id) (Msg.channelData r data) c c')
      (fun _ c' => c.now.writeHard ≤ c.now.writeBytes ∧ Draws c c') := by
  by_cases hroom : c.now.writeBytes < c.now.writeHard
  · have hshort : (Msg.channelData r data).length + 512 < CryptoLib.gcmMaxLen := by
      have hlimit := CryptoLib.gcmMaxLen_ge
      rw [length_channelData]
      omega
    obtain ⟨c', hq, hc'⟩ := queueMsg_ok (some id) (c := c)
      (by simp [Msg.channelData] : Msg.channelData r data ≠ []) (.inr hroom) hshort
    exact (congrArg (Outcome.Sat · _ _) hq).mpr hc'
  · exact (queueMsg_sat (some id) (Msg.channelData r data) false c).mono (fun _ _ h => h)
      fun _ _ h => ⟨Nat.le_of_not_lt hroom, h⟩

/-- What a failed data packet leaves: a smaller window and no packet. -/
def SendLost (id : UInt32) (c c' : Conn) : Prop :=
  ∃ ch n r rng, c.now.channels.get? id = some ch ∧ c.now.kexBlocksApp = false ∧
    ch.remoteId = some r ∧ c.now.writeBytes < c.now.writeSoft ∧
    c.now.writeHard ≤ c.now.writeBytes ∧ n ≤ ch.sendWindow.toNat ∧
    c' = withChannel ⟨{ c.now with rng := rng }, c.log⟩ id
      { ch with sendWindow := ch.sendWindow - UInt32.ofNat n }

/-- One round of `send_data`. -/
theorem enqueueOrSend_sat {id : UInt32} {ch : Channel} {chunk : Bytes}
    (hch : c.now.channels.get? id = some ch) (hne : chunk ≠ [])
    (hallow : chunk.length ≤ c.now.outboundAllowance id) :
    (enqueueOrSend id chunk c).Sat
      (fun _ c1 => ∀ chunks c', SendsData id c1 chunks c' → SendsData id c (chunk :: chunks) c')
      (fun _ c1 => SendLost id c c1) := by
  have hpos : 0 < chunk.length := List.length_pos_iff.mpr hne
  unfold enqueueOrSend
  simp only [Proc.bind_apply, Traced.read_apply, Outcome.bind_ok, getChannel_some hch,
    Proc.ite_apply]
  by_cases hdefer : c.now.kexBlocksApp = true ∨ ch.remoteId = none
  · have hcond : (!(ch.openConfirmed && !c.now.kexBlocksApp && !ch.sentEof) || ch.remoteId.isNone
        || ch.sendWindow == 0) = true := by
      rcases hdefer with h | h <;> simp [h]
    rw [if_pos hcond]
    simp only [setChannel_apply]
    exact fun chunks c' h => SendsData.defer hch hne hallow hdefer h
  · obtain ⟨hgate, hremote⟩ := not_or.mp hdefer
    have hgate : c.now.kexBlocksApp = false := eq_false_of_ne_true hgate
    obtain ⟨r, hr⟩ := Option.ne_none_iff_exists'.mp hremote
    obtain ⟨ho, he, -, hsoft, hwin, hmax⟩ :=
      of_outboundAllowance_pos hch hgate (Nat.lt_of_lt_of_le hpos hallow)
    -- the allowance is below the window and the packet size: nothing is left over
    have hw : ch.sendWindow ≠ 0 := by
      rintro h
      rw [h] at hwin
      exact absurd (Nat.le_trans hallow hwin) (Nat.not_le.mpr hpos)
    have hcond : ¬ (!(ch.openConfirmed && !c.now.kexBlocksApp && !ch.sentEof)
        || ch.remoteId.isNone || ch.sendWindow == 0) = true := by
      simp [ho, hgate, he, hr, hw]
    have hn : min (min chunk.length ch.maxRemotePacket.toNat) ch.sendWindow.toNat
        = chunk.length := by omega
    have hlen : chunk.length < 2 ^ 32 := by
      have := ch.sendWindow.toNat_lt
      omega
    have hsub : UInt32.ofNat chunk.length ≤ ch.sendWindow := by
      rw [UInt32.le_iff_toNat_le, UInt32.toNat_ofNat', Nat.mod_eq_of_lt hlen]
      omega
    rw [if_neg hcond, hr]
    simp only [Proc.unwrap_some, Outcome.bind_ok, hn, Nat.lt_irrefl, if_false,
      Proc.bind_apply, getChannel_some hch, Proc.checkedSub32_of_le hsub,
      setChannel_apply, Proc.slice_of_le (Nat.zero_le _) (Nat.le_refl _), List.drop_zero,
      Nat.sub_zero, List.take_length]
    refine (sendChannelDataPkt_sat _ _ _ hlen).mono ?_ ?_
    · exact fun _ c1 hq chunks c' h => SendsData.wire hch hne hallow hgate hr hq h
    · rintro _ c1 ⟨hhard, ⟨rng⟩⟩
      exact ⟨ch, chunk.length, r, rng, hch, hgate, hr,
        Nat.lt_of_le_of_lt (writeBytes_le_queued _) hsoft, hhard, by omega, rfl⟩

omit [CryptoLib] in
theorem live_of_allowance {c : Connection} {id : UInt32} (h : c.outboundAllowance id ≠ 0) :
    ∃ ch, c.channels.get? id = some ch := by
  cases hch : c.channels.get? id with
  | none => exact absurd (by simp [outboundAllowance, hch]) h
  | some ch => exact ⟨ch, rfl⟩

/-- The loop of `send_data`, from the byte `sent` on.  With as many rounds as
    there are bytes left it stops on its own condition, and its first round takes
    what the allowance allows. -/
theorem sendLoop_sat (id : UInt32) (data : Bytes) :
    ∀ (fuel sent : Nat) (c : Conn), sent ≤ data.length →
      (sendLoop id data fuel sent c).Sat
        (fun n c' => (∃ chunks, SendsData id c chunks c' ∧ sent ≤ n ∧ n ≤ data.length ∧
          chunks.flatten = (data.drop sent).take (n - sent)) ∧
          (data.length ≤ sent + fuel → (n = data.length ∨ c'.now.outboundAllowance id = 0) ∧
            min data.length (sent + c.now.outboundAllowance id) ≤ n))
        (fun _ c' => ∃ chunks c1, SendsData id c chunks c1 ∧ SendLost id c1 c')
  | 0, sent, c, hle => ⟨⟨[], .done c, Nat.le_refl _, hle, by simp⟩, by omega⟩
  | fuel + 1, sent, c, hle => by
      have hstop : ∃ chunks, SendsData id c chunks c ∧ sent ≤ sent ∧ sent ≤ data.length ∧
          chunks.flatten = (data.drop sent).take (sent - sent) :=
        ⟨[], .done c, Nat.le_refl _, hle, by simp⟩
      unfold sendLoop
      simp only [Proc.ite_apply]
      split
      · rename_i hlt
        simp only [Proc.bind_apply, Traced.read_apply, Outcome.bind_ok, Proc.ite_apply]
        split
        · rename_i hallow
          exact ⟨hstop, fun _ => ⟨.inr hallow, by omega⟩⟩
        · rename_i hallow
          obtain ⟨ch, hch⟩ := live_of_allowance hallow
          generalize hn : min (c.now.outboundAllowance id) (data.length - sent) = n
          have hround : sent + n ≤ data.length := by omega
          have hlen : ((data.drop sent).take n).length = n := by
            rw [List.length_take, List.length_drop]
            omega
          have hne : (data.drop sent).take n ≠ [] := by
            rintro h
            rw [h] at hlen
            simp only [List.length_nil] at hlen
            omega
          simp only [Proc.bind_apply, Proc.checkedSub_of_le (Nat.le_of_lt hlt), Outcome.bind_ok, hn,
            Proc.slice_of_le (Nat.le_add_right sent n) hround, Nat.add_sub_cancel_left]
          refine ((enqueueOrSend_sat hch hne (by rw [hlen]; omega)).mono (fun _ _ h => h)
            fun _ c1 h => ⟨[], c, .done c, h⟩).bind fun _ c1 hext => ?_
          refine (sendLoop_sat id data fuel (sent + n) c1 hround).mono ?_ ?_
          · rintro m c' ⟨⟨chunks, hs, hm, hm', hflat⟩, hend⟩
            refine ⟨⟨_, hext chunks c' hs, by omega, hm', ?_⟩, fun hfuel => ?_⟩
            · rw [List.flatten_cons, hflat, ← List.drop_drop, ← List.take_add]
              congr 1
              omega
            · exact ⟨(hend (by omega)).1, by omega⟩
          · rintro _ c' ⟨chunks, c2, hs, hl⟩
            exact ⟨_, c2, hext chunks c2 hs, hl⟩
      · exact ⟨hstop, fun _ => ⟨.inl (by omega), by omega⟩⟩

/-- `send_data`: it takes at least what the allowance allows, and stops only when
    all is taken or nothing more is allowed. -/
theorem sendData_sat (id : UInt32) (data : Bytes) (c : Conn) :
    (sendData id data c).Sat
      (fun n c' => (∃ chunks, SendsData id c chunks c' ∧ n ≤ data.length ∧
        chunks.flatten = data.take n) ∧ (n = data.length ∨ c'.now.outboundAllowance id = 0) ∧
        min data.length (c.now.outboundAllowance id) ≤ n)
      (fun _ c' => ∃ chunks c1, SendsData id c chunks c1 ∧ SendLost id c1 c') := by
  unfold sendData
  rw [Proc.ite_apply]
  split
  · rename_i hnil
    subst hnil
    exact ⟨⟨[], .done c, Nat.le_refl _, rfl⟩, .inl rfl, by simp⟩
  · refine (sendLoop_sat id data data.length 0 c (Nat.zero_le _)).mono ?_ fun _ _ h => h
    rintro n c' ⟨⟨chunks, hs, -, hn, hflat⟩, hend⟩
    obtain ⟨hstop, htakes⟩ := hend (Nat.le_add_left _ _)
    rw [Nat.zero_add] at htakes
    exact ⟨⟨chunks, hs, hn, by simpa using hflat⟩, hstop, htakes⟩

theorem sendDataNoted_follows (id : UInt32) (data : Bytes) (c : Conn) :
    Proc.Follows (Called (.sendData id data)) (sendDataNoted id data) c := by
  have hdata : (sendData id data c).Sat
      (fun n c' => ∃ chunks, SendsData id c chunks c' ∧ n ≤ data.length ∧
        chunks.flatten = data.take n)
      (fun _ c' => Called (.sendData id data) c c') := by
    refine (sendData_sat id data c).mono (fun _ _ h => h.1) ?_
    rintro _ c' ⟨chunks, c1, hs, ch, n, r, rng, hch, hgate, hr, hsoft, hhard, hn, rfl⟩
    exact (Step.sendLost hs hch hgate hr hsoft hhard hn).called
  unfold sendDataNoted
  refine Outcome.Sat.bind (R := fun c0 c1 => c0 = c.now ∧ c1 = c) ⟨rfl, rfl⟩ ?_
  rintro _ _ ⟨rfl, rfl⟩
  refine hdata.bind ?_
  rintro n c' ⟨chunks, hs, hn, hflat⟩
  exact (Step.sendData hs hn hflat).called

-- ============================================================================
-- Deferred data
-- ============================================================================

omit [CryptoLib] in
/-- Both ways to take a chunk off the queue are one. -/
theorem splitFront_apply (ch : Channel) (front : Bytes) (queue : List Bytes) (n : Nat) (c : Conn) :
    splitFront front queue n c = .ok (front.take n, (flushed ch front queue n).pendingOut) c := by
  unfold splitFront
  rw [Proc.ite_apply]
  split
  · rename_i hge
    simp [flushed, hge, List.take_of_length_le hge]
  · rename_i hge
    have hle : n ≤ front.length := Nat.le_of_not_le hge
    rw [Proc.bind_of_ok (Proc.splitAt_of_le hle c)]
    simp [flushed, Nat.lt_of_not_le hge]

/-- `flush_pending` has something to send on channel `ch`. -/
def Flushable (c : Connection) (ch : Channel) : Prop :=
  ∃ r front queue, CanFlush c ch r ∧ ch.pendingOut = front :: queue ∧ front ≠ []

/-- A round with nothing to send is the last one. -/
theorem flushOnce_idle (id : UInt32) {c : Conn} (hgate : c.now.kexBlocksApp = false)
    (h : ∀ ch, c.now.channels.get? id = some ch → ¬Flushable c.now ch) :
    flushOnce id c = .ok false c := by
  unfold flushOnce
  rw [Proc.bind_of_ok (Traced.read_apply c)]
  cases hch : c.now.channels.get? id with
  | none => rfl
  | some ch =>
    dsimp only
    rw [Proc.ite_apply]
    split
    · rfl
    rename_i hflags
    simp only [Bool.or_eq_true, not_or, Bool.not_eq_true', Bool.not_eq_false, Bool.not_eq_true,
      Option.isNone_eq_false_iff, beq_eq_false_iff_ne] at hflags
    obtain ⟨⟨⟨⟨ho, he⟩, hr⟩, hw⟩, hn⟩ := hflags
    obtain ⟨r, hr⟩ := Option.isSome_iff_exists.mp hr
    rw [Proc.ite_apply]
    split
    · rfl
    rename_i hsoft
    cases hp : ch.pendingOut with
    | nil => rfl
    | cons front queue =>
      have hne : front ≠ [] := by
        rintro rfl
        exact hn (by simp [hp])
      exact absurd ⟨r, front, queue, ⟨hgate, ho, he, hr, hw, Nat.lt_of_not_le hsoft⟩, hp, hne⟩ (h ch hch)

/-- A round with something to send: it goes on if it has queued a packet, and
    stops if the backlog is above the hard limit. -/
theorem flushOnce_send (id : UInt32) {c : Conn} {ch : Channel} {r : UInt32} {front : Bytes}
    {queue : List Bytes} (hch : c.now.channels.get? id = some ch) (hcan : CanFlush c.now ch r)
    (hp : ch.pendingOut = front :: queue) (hne : front ≠ []) :
    (flushOnce id c).Sat
      (fun again c' => StepsAt id c c' ∧ c'.now.kexBlocksApp = false ∧
        (again = true → c'.now.writeSoft = c.now.writeSoft ∧
          c.now.queuedWriteBytes < c'.now.queuedWriteBytes ∧
          c.now.queuedWriteBytes < c.now.writeSoft) ∧
        (again = false → c.now.writeHard ≤ c.now.writeBytes ∧
          c'.now.writeHard ≤ c'.now.writeBytes) ∧
        c'.now.events = c.now.events ∧
        c'.now.channels = c.now.channels.set id (flushed ch front queue (flushTake ch front)))
      (fun _ _ => False) := by
  have hflags : ¬(!ch.openConfirmed || ch.sentEof || ch.remoteId.isNone || ch.sendWindow == 0 ||
      (ch.pendingOut.head?.map List.length).getD 0 == 0) = true := by
    simp [hcan.confirmed, hcan.live, hcan.remote, hcan.window, hp, hne]
  have htake : min (min ((ch.pendingOut.head?.map List.length).getD 0)
      ch.maxRemotePacket.toNat) ch.sendWindow.toNat = flushTake ch front := by
    simp [hp, flushTake]
  have hlen : (front.take (flushTake ch front)).length ≤ ch.sendWindow.toNat := by
    rw [List.length_take]
    unfold flushTake
    omega
  have hlen32 : (front.take (flushTake ch front)).length < 2 ^ 32 :=
    Nat.lt_of_le_of_lt hlen ch.sendWindow.toNat_lt
  have hsub : UInt32.ofNat (front.take (flushTake ch front)).length ≤ ch.sendWindow := by
    rw [UInt32.le_iff_toNat_le, UInt32.toNat_ofNat', Nat.mod_eq_of_lt hlen32]
    exact hlen
  unfold flushOnce
  rw [Proc.bind_of_ok (Traced.read_apply c), hch]
  dsimp only
  rw [Proc.ite_apply, if_neg hflags, Proc.ite_apply, if_neg (Nat.not_le.mpr hcan.room), htake, hp]
  dsimp only
  rw [Proc.bind_of_ok (splitFront_apply ch front queue _ c),
    Proc.bind_of_ok (Proc.checkedSub32_of_le hsub c),
    Proc.bind_of_ok (setChannel_apply _ _ c), Proc.bind_of_ok (unwrap_of_eq hcan.remote _)]
  have hpkt := sendChannelDataPkt_sat id r
    (withChannel c id (flushed ch front queue (flushTake ch front))) hlen32
  refine Proc.sat_succeeds (hpkt.mono ?_ ?_)
  · intro _ c' hq
    have hctl := hq.control
    have hstep := (Step.flush hch hcan hp hne hq).at_set hq.channels
    have hevents : c'.now.events = c.now.events := by
      cases hq
      rfl
    refine ⟨hstep, ?_, fun _ => ⟨?_, ?_, hcan.room⟩, nofun, hevents, hq.channels⟩
    · exact (congrArg (·.conn.kexBlocksApp) hctl).trans hcan.gate
    · exact congrArg (·.conn.writeSoft) hctl
    · exact (show (withChannel c id _).now.queuedWriteBytes < _ from queued_lt_of_queues hq)
  · rintro _ c' ⟨hhard, ⟨rng⟩⟩
    have hlost : Step .own c (withChannel ⟨{ c.now with rng := rng }, c.log⟩ id
      (flushed ch front queue (flushTake ch front))) := Step.flushLost hch hcan hp hne hhard
    exact ⟨hlost.at_set rfl, hcan.gate, nofun, fun _ => ⟨hhard, hhard⟩, rfl, rfl⟩

/-- One round of `flush_pending`: a round that goes on has queued a packet. -/
theorem flushOnce_sat (id : UInt32) (c : Conn) (hgate : c.now.kexBlocksApp = false) :
    (flushOnce id c).Sat
      (fun again c' => StepsAt id c c' ∧ c'.now.kexBlocksApp = false ∧
        (again = true → c'.now.writeSoft = c.now.writeSoft ∧
          c.now.queuedWriteBytes < c'.now.queuedWriteBytes ∧
          c.now.queuedWriteBytes < c.now.writeSoft))
      (fun _ _ => False) := by
  by_cases hsend : ∃ ch, c.now.channels.get? id = some ch ∧ Flushable c.now ch
  · obtain ⟨ch, hch, r, front, queue, hcan, hp, hne⟩ := hsend
    exact (flushOnce_send id hch hcan hp hne).mono (fun _ _ h => ⟨h.1, h.2.1, h.2.2.1⟩)
      fun _ _ h => h
  · rw [flushOnce_idle id hgate fun ch hch hf => hsend ⟨ch, hch, hf⟩]
    exact ⟨.refl, hgate, fun h => by cases h⟩

/-- The fuel of `flush_pending` is enough: the loop satisfies the equation of
    the `loop` in the source, round by round. -/
theorem flushPending_unfold (id : UInt32) {c : Conn} {fuel : Nat}
    (hgate : c.now.kexBlocksApp = false)
    (hfuel : c.now.writeSoft - c.now.queuedWriteBytes < fuel) :
    Proc.loop (flushOnce id) fuel c = (flushOnce id c).bind fun again c' =>
      if again then Proc.loop (flushOnce id) fuel c' else .ok () c' := by
  refine Proc.loop_unfold (I := fun c => c.now.kexBlocksApp = false)
    (μ := fun c => c.now.writeSoft - c.now.queuedWriteBytes) ?_ hgate hfuel
  intro c c' hg hb
  obtain ⟨-, hg', h⟩ := (flushOnce_sat id c hg).of_ok hb
  obtain ⟨hsoft, hlt, hroom⟩ := h rfl
  exact ⟨hg', by omega⟩

theorem flushPending_returns (id : UInt32) (c : Conn) :
    Proc.Returns (StepsAt id) (flushPending id) c := by
  unfold flushPending Proc.Returns
  simp only [Proc.bind_apply, Traced.read_apply, Outcome.bind_ok, Proc.ite_apply]
  split
  · exact .refl
  · rename_i hgate
    refine (Proc.sat_loop (I := fun c' => StepsAt id c c' ∧ c'.now.kexBlocksApp = false)
      (E := fun _ _ => False) ?_ _ c ⟨.refl, eq_false_of_ne_true hgate⟩).mono
        (fun _ _ h => h.1) fun _ _ h => h
    rintro c1 ⟨hs, hg⟩
    exact (flushOnce_sat id c1 hg).mono (fun _ _ h => ⟨hs.trans h.1, h.2.1⟩) fun _ _ h => h

theorem flushPendingAll_returns (c : Conn) : Proc.Returns Steps flushPendingAll c := by
  unfold flushPendingAll Proc.Returns
  simp only [Proc.bind_apply, Traced.read_apply, Outcome.bind_ok, Proc.ite_apply]
  split
  · exact .refl
  · refine Proc.Returns.forEach (R := Steps) (fun _ => .refl) steps_trans (fun id c => ?_) _ c
    exact (flushPending_returns id c).mono (fun _ _ h => StepsAt.steps h) fun _ _ h => h

theorem flushPending_idle (id : UInt32) {c : Conn}
    (h : ∀ ch, c.now.channels.get? id = some ch → ¬Flushable c.now ch) :
    flushPending id c = .ok () c := by
  unfold flushPending
  rw [Proc.bind_of_ok (Traced.read_apply c), Proc.ite_apply]
  split
  · rfl
  · rename_i hgate
    rw [Proc.loop, Proc.bind_of_ok (flushOnce_idle id (eq_false_of_ne_true hgate) h)]
    rfl

theorem flushPendingAll_idle {c : Conn}
    (h : ∀ id ch, c.now.channels.get? id = some ch → ¬Flushable c.now ch) :
    flushPendingAll c = .ok () c := by
  unfold flushPendingAll
  rw [Proc.bind_of_ok (Traced.read_apply c), Proc.ite_apply]
  split
  · rfl
  · generalize c.now.channels.iterIds = ids
    induction ids with
    | nil => rfl
    | cons id ids ih =>
      rw [Proc.forEach, Proc.bind_of_ok (flushPending_idle id (h id))]
      exact ih

-- ============================================================================
-- Credit, EOF and CLOSE
-- ============================================================================

omit [CryptoLib] in
/-- The amount does not depend on the state it is computed in, and granting it
    does not overflow the window. -/
theorem windowAdjustAmount_apply (ch : Channel) : ∃ add : UInt32,
    (∀ {σ : Type} (s : σ), ch.windowAdjustAmount s = .ok add s) ∧
      ch.recvWindow.toNat + add.toNat < 2 ^ 32 := by
  unfold Channel.windowAdjustAmount
  generalize saturatingSub32 ch.recvMax (UInt32.ofNat ch.inQBytes) = allowed
  by_cases hle : allowed ≤ ch.recvWindow
  · refine ⟨0, fun s => ?_, by simpa using ch.recvWindow.toNat_lt⟩
    simp [hle]
  · have hsub : ch.recvWindow ≤ allowed := UInt32.le_of_lt (UInt32.not_le.mp hle)
    have hnat : (allowed - ch.recvWindow).toNat = allowed.toNat - ch.recvWindow.toNat :=
      UInt32.toNat_sub_of_le _ _ hsub
    have hlt := allowed.toNat_lt
    have hle' := UInt32.le_iff_toNat_le.mp hsub
    by_cases hworth : allowed - ch.recvWindow ≥ ch.recvMax / 8
        ∨ ch.recvWindow < ch.recvMax / 4
    · refine ⟨allowed - ch.recvWindow, fun s => ?_, by omega⟩
      simp [hle, Proc.checkedSub32_of_le hsub, hworth]
    · refine ⟨0, fun s => ?_, by simpa using ch.recvWindow.toNat_lt⟩
      simp [hle, Proc.checkedSub32_of_le hsub, hworth]

theorem maybeAdjust_returns (id : UInt32) (c : Conn) :
    Proc.Returns (Adjusts id) (maybeAdjust id) c := by
  unfold maybeAdjust Proc.Returns
  rw [Proc.bind_of_ok (Traced.read_apply c), Proc.ite_apply]
  split
  · exact .none
  rename_i hgate
  have hgate := eq_false_of_ne_true hgate
  cases hch : c.now.channels.get? id with
  | none => exact .none
  | some ch =>
    obtain ⟨add, hadd, hfits⟩ := windowAdjustAmount_apply ch
    dsimp only
    rw [Proc.bind_of_ok (hadd c), Proc.ite_apply]
    split
    · exact .none
    rename_i hpos
    rw [Proc.bind_of_ok (Proc.checkedAdd32_of_lt hfits c), Proc.bind_of_ok (setChannel_apply _ _ c)]
    refine Proc.sat_ifSome ?_ ?_
    · exact fun hr => Adjusts.grant (Step.grantSilent hgate hch (hadd ()) hpos hr)
    · intro r hr
      refine Proc.sat_ignore ((queueMsg_short _ _ _ (by simp) (by simp)).mono ?_ fun _ _ h => h.elim)
      exact fun _ c' hq => Adjusts.grant (Step.grant hgate hch (hadd ()) hpos hr hq)

theorem consumeInbound_follows (id : UInt32) (n : Nat) (c : Conn) :
    Proc.Follows (Called (.consumeInbound id n)) (consumeInbound id n) c := by
  unfold consumeInbound Proc.Follows
  rw [Proc.bind_of_ok (Traced.read_apply c)]
  cases hch : c.now.channels.get? id with
  | none => exact .other .refl
  | some ch =>
    dsimp only
    cases hq : ch.inQ with
    | nil => exact .other .refl
    | cons front queue =>
      have hle : min n front.length ≤ front.length := Nat.min_le_right _ _
      have hstep := Step.consume (m := n) hch hq
      unfold consumed at hstep
      dsimp only
      rw [Proc.ite_apply]
      split
      · rename_i hall
        rw [if_pos hall, hall] at hstep
        rw [Proc.bind_of_ok (setChannel_apply _ _ c)]
        exact (maybeAdjust_returns id _).mono (fun _ _ h => .consume rfl hstep h) fun _ _ h => h.elim
      · rename_i hpart
        rw [if_neg hpart] at hstep
        rw [Proc.bind_of_ok (Proc.splitAt_of_le hle c), Proc.bind_of_ok (setChannel_apply _ _ c)]
        exact (maybeAdjust_returns id _).mono (fun _ _ h => .consume rfl hstep h) fun _ _ h => h.elim

theorem emitEofIfReady_follows (id : UInt32) (c : Conn) :
    Proc.Follows (StepsAt id) (emitEofIfReady id) c := by
  unfold emitEofIfReady Proc.Follows
  rw [Proc.bind_of_ok (Traced.read_apply c), Proc.ite_apply]
  split
  · exact .refl
  rename_i hgate
  have hgate := eq_false_of_ne_true hgate
  cases hch : c.now.channels.get? id with
  | none => exact .refl
  | some ch =>
    dsimp only
    rw [Proc.ite_apply]
    split
    · exact .refl
    rename_i hflags
    simp only [Bool.or_eq_true, not_or, Bool.not_eq_true', Bool.not_eq_false,
      Bool.not_eq_true] at hflags
    rw [Proc.bind_of_ok (setChannel_apply _ _ c)]
    refine Proc.sat_ifSome ?_ ?_
    · exact fun hr => (Step.emitEofSilent hgate hch hflags.1 hflags.2 hr).at_set rfl
    · intro r hr
      refine (queueMsg_short _ _ _ (by simp) (by simp)).mono ?_ fun _ _ h => h.elim
      exact fun _ c' hq => (Step.emitEof hgate hch hflags.1 hflags.2 hr hq).at_set hq.channels

/-- The last part of `emit_close_if_ready`: free the slot if both sides closed. -/
theorem freeIfClosed_follows (id : UInt32) (c : Conn) :
    Proc.Follows (StepsAt id) (do
      let c ← Traced.read
      if (c.channels.get? id).any fun ch => ch.gotClose && ch.wireClose then freeChannel id
      else return () : ConnM Unit) c := by
  unfold Proc.Follows
  rw [Proc.bind_of_ok (Traced.read_apply c), Proc.ite_apply]
  split
  · rename_i hany
    obtain ⟨ch, hch, hboth⟩ := (Option.any_eq_true _ _).mp hany
    simp only [Bool.and_eq_true] at hboth
    rw [freeChannel_apply]
    exact (Step.freeClosed hch hboth.1 hboth.2).at_release rfl
  · exact .refl

/-- `emit_close_if_ready` with the gate open and a CLOSE asked for; `h` are
    the steps by which the channel came to be `ch`. -/
theorem emitClose_follows (c0 : Conn) {id : UInt32} {ch : Channel}
    (hgate : c.now.kexBlocksApp = false) (hch : c.now.channels.get? id = some ch)
    (hclose : ch.sentClose = true)
    (hagain : ch.wireClose = true → StepsAt id c0 c)
    (hsilent : ch.wireClose = false → ch.remoteId = none →
      StepsAt id c0 (withChannel c id { ch with wireClose := true, wireEof := true }))
    (hsend : ∀ r c', ch.wireClose = false → ch.remoteId = some r →
      Queues (some id) (Msg.channelClose r)
        (withChannel c id { ch with wireClose := true, wireEof := true }) c' → StepsAt id c0 c') :
    (emitCloseIfReady id c).Sat (fun _ c' => StepsAt id c0 c') (fun _ c' => StepsAt id c0 c') := by
  unfold emitCloseIfReady
  rw [Proc.bind_of_ok (Traced.read_apply c), hgate, Proc.ite_apply, if_neg Bool.false_ne_true, hch]
  dsimp only
  rw [Proc.ite_apply, if_neg (by simp [hclose]), Proc.ite_apply]
  split
  · rename_i hwire
    rw [Proc.bind_of_ok (Proc.pure_apply _ c)]
    exact follows_at (hagain hwire) (freeIfClosed_follows id c)
  · rename_i hwire
    have hwire := eq_false_of_ne_true hwire
    rw [Proc.bind_of_ok (setChannel_apply _ _ c), Proc.bind_of_ok (Proc.pure_apply _ _)]
    refine Outcome.Sat.bind (R := fun _ c1 => StepsAt id c0 c1) (Proc.sat_ifSome ?_ ?_)
      fun _ c1 h1 => follows_at h1 (freeIfClosed_follows id c1)
    · exact hsilent hwire
    · intro r hr
      refine (queueMsg_short _ _ _ (by simp) (by simp)).mono ?_ fun _ _ h => h.elim
      exact fun _ c' hq => hsend r c' hwire hr hq

theorem emitCloseIfReady_gated (id : UInt32) (c : Conn) (hgate : c.now.kexBlocksApp = true) :
    emitCloseIfReady id c = .ok () c := by
  unfold emitCloseIfReady
  rw [Proc.bind_of_ok (Traced.read_apply c), hgate]
  rfl

theorem emitCloseIfReady_follows (id : UInt32) (c : Conn) :
    Proc.Follows (StepsAt id) (emitCloseIfReady id) c := by
  by_cases hready : c.now.kexBlocksApp = false ∧
      ∃ ch, c.now.channels.get? id = some ch ∧ ch.sentClose = true
  · obtain ⟨hgate, ch, hch, hclose⟩ := hready
    refine emitClose_follows c hgate hch hclose (fun _ => .refl) ?_ ?_
    · exact fun hw hr => (Step.emitCloseSilent hgate hch hclose hw hr).at_set rfl
    · exact fun r c' hw hr hq => (Step.emitClose hgate hch hclose hw hr hq).at_set hq.channels
  · unfold emitCloseIfReady Proc.Follows
    rw [Proc.bind_of_ok (Traced.read_apply c), Proc.ite_apply]
    split
    · exact .refl
    rename_i hgate
    cases hch : c.now.channels.get? id with
    | none => exact .refl
    | some ch =>
      dsimp only
      rw [Proc.ite_apply]
      split
      · exact .refl
      rename_i hclose
      simp only [Bool.not_eq_true', Bool.not_eq_false] at hclose
      exact absurd ⟨eq_false_of_ne_true hgate, ch, hch, hclose⟩ hready

theorem sendEof_follows (id : UInt32) (c : Conn) : Proc.Follows (Called (.sendEof id)) (sendEof id) c := by
  unfold sendEof Proc.Follows
  rw [Proc.bind_of_ok (Traced.read_apply c)]
  cases hch : c.now.channels.get? id with
  | none =>
    rw [Proc.bind_apply, getChannel_none hch]
    exact .other .refl
  | some ch =>
    rw [Proc.bind_of_ok (getChannel_some hch), Proc.ite_apply]
    split
    · exact .other .refl
    rename_i hflags
    simp only [Bool.or_eq_true, not_or, Bool.not_eq_true] at hflags
    rw [Proc.bind_of_ok (setChannel_apply _ _ c), Proc.bind_of_ok (Traced.observe_apply _ _)]
    exact called_after (Step.askEof hch hflags.1 hflags.2)
      (follows_steps (emitEofIfReady_follows id _))

theorem sendClose_follows (id : UInt32) (c : Conn) : Proc.Follows (StepsAt id) (sendClose id) c := by
  unfold sendClose Proc.Follows
  rw [Proc.bind_of_ok (Traced.read_apply c)]
  cases hch : c.now.channels.get? id with
  | none =>
    rw [Proc.bind_apply, getChannel_none hch]
    exact .refl
  | some ch =>
    rw [Proc.bind_of_ok (getChannel_some hch), Proc.ite_apply]
    split
    · exact .refl
    rename_i hclose
    have hclose := eq_false_of_ne_true hclose
    rw [Proc.bind_of_ok (setChannel_apply _ _ c), Proc.bind_of_ok (Traced.observe_apply _ _)]
    cases hgate : c.now.kexBlocksApp with
    | true =>
      rw [emitCloseIfReady_gated id]
      · exact (Step.askClose hgate hch hclose).at_set rfl
      · exact hgate
    | false =>
      refine emitClose_follows c hgate (ChannelTable.get?_set_self hch) rfl ?_ ?_ ?_
      · exact fun hw => (Step.closeAgain hch hclose hw).at_set rfl
      · intro hw hr
        have h := Step.closeSilent hgate hch hclose hw hr
        simp only [withChannel, putChannel, ChannelTable.set_set]
        exact h.at_set rfl
      · intro r c' hw hr hq
        simp only [withChannel, putChannel, ChannelTable.set_set] at hq
        exact (Step.closeNow hgate hch hclose hw hr hq).at_set hq.channels

-- ============================================================================
-- Opening
-- ============================================================================

theorem confirmOpen_follows (id : UInt32) (c : Conn) :
    Proc.Follows (Called (.confirmOpen id)) (confirmOpen id) c := by
  unfold confirmOpen Proc.Follows
  cases hch : c.now.channels.get? id with
  | none =>
    rw [Proc.bind_apply, getChannel_none hch]
    exact .other .refl
  | some ch =>
    rw [Proc.bind_of_ok (getChannel_some hch), Proc.bind_of_ok (setChannel_apply _ _ c)]
    rcases Option.eq_none_or_eq_some ch.remoteId with hr | ⟨r, hr⟩
    · have hfail : (Proc.okOr ch.remoteId (.protocol "confirm without remote") : ConnM UInt32)
          (withChannel c id { ch with openConfirmed := true })
          = .err (.protocol "confirm without remote")
            (withChannel c id { ch with openConfirmed := true }) := by
        rw [hr]
        rfl
      rw [Proc.bind_apply, hfail]
      exact (Step.confirmSilent hch hr).called
    · rw [Proc.bind_of_ok (okOr_of_eq hr _ _)]
      refine (queueMsg_short _ _ _ (by simp) (by simp)).mono ?_ fun _ _ h => h.elim
      exact fun _ c' hq => (Step.confirm hch hr hq).called

theorem failOpen_follows (id reason : UInt32) (msg : String) (c : Conn) :
    Proc.Follows (Called (.failOpen id reason msg)) (failOpen id reason msg) c := by
  unfold failOpen Proc.Follows
  cases hch : c.now.channels.get? id with
  | none =>
    rw [Proc.bind_apply, getChannel_none hch]
    exact .other .refl
  | some ch =>
    rw [Proc.bind_of_ok (getChannel_some hch)]
    cases hr : ch.remoteId with
    | none => exact .other .refl
    | some r =>
      rw [Proc.bind_of_ok (Proc.okOr_some _ _ _), Proc.bind_of_ok (freeChannel_apply id c)]
      refine (queueMsg_sends _ _ _ (by simp)).mono ?_ ?_
      · exact fun _ c' hq => (Step.failOpen hch hr (.inl hq)).called
      · exact fun _ c' hq => (Step.failOpen hch hr (.inr hq)).called

omit [CryptoLib] in
/-- `alloc` fills a slot, or fails and changes nothing. -/
theorem allocChannel_sat (ch : Channel) (ht : TableOk c.now.channels) :
    (allocChannel ch c).Sat (fun id c' => Allocates ch c id c') (fun _ c' => c' = c) := by
  have hsat := ChannelTable.alloc_sat ht ch
  unfold allocChannel
  rw [Proc.bind_apply]
  unfold Proc.focus
  cases ha : ChannelTable.alloc ch c.now.channels with
  | panic => rw [ha] at hsat; exact hsat
  | err e t =>
    rw [ha] at hsat
    cases hsat
    rfl
  | ok id t => exact Allocates.mk ha

theorem openDirectTcpip_follows (host : String) (port : UInt32) (c : Conn) (hwf : WellFormed c) :
    Proc.Follows (Called (.openDirectTcpip host port)) (openDirectTcpip host port) c := by
  unfold openDirectTcpip Proc.Follows
  rw [Proc.bind_of_ok (Traced.read_apply c), Proc.bind_apply, Proc.failIf_apply]
  split
  · exact .other .refl
  rename_i hready
  obtain ⟨hrole, hauth⟩ := not_or.mp hready
  have hrole : c.now.role = .client := not_not.mp hrole
  have hauth : c.now.authed = true := eq_true_of_ne_false hauth
  dsimp only [Outcome.bind_ok]
  refine ((allocChannel_sat _ hwf.table).mono (fun _ _ h => h)
    fun _ c' h => h ▸ Called.other .refl).bind fun id c1 ha => ?_
  refine ((queueMsg_sends (some id) _ c1 (by simp)).mono
    (R := fun _ c' => Called (.openDirectTcpip host port) c c') ?_ ?_).bind fun _ c2 h2 => h2
  · exact fun _ c' hq => (Step.openLocal hrole hauth ha (.inl hq)).called
  · exact fun _ c' hq => (Step.openLocal hrole hauth ha (.inr hq)).called

theorem roundRobinIds_follows (c : Conn) : Proc.Follows (Called .roundRobinIds) roundRobinIds c := by
  unfold roundRobinIds Proc.Follows
  rw [Proc.bind_of_ok (Traced.read_apply c)]
  dsimp only
  rw [Proc.ite_apply]
  split
  · exact .other .refl
  · rename_i hids
    have hpos : 0 < c.now.channels.iterIds.length := List.length_pos_iff.mpr hids
    have hle := Nat.le_of_lt (Nat.mod_lt c.now.rr.toNat hpos)
    rw [Proc.bind_of_ok (Traced.update_apply _ c), Proc.bind_of_ok (Proc.splitAt_of_le hle _)]
    exact (Step.roundRobin c).called

end Connection

end Ssproxy
