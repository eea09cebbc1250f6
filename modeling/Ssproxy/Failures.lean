/-
  Ssproxy.Failures

  What a failed channel call leaves behind.  The checks of a call come before
  its changes, with two exceptions: `confirm_open` sets its flag before it looks
  for the remote id, and `fail_open` and `open_direct_tcpip` have changed the
  table when AES-GCM refuses to seal a message of more than 2^36 bytes.

  - `ChannelCall` are the five calls, `Untouched` is a failure that changes
    nothing, `ChannelCall.Safe` the states in which every failure is such.
-/

import Ssproxy.Gate
import Ssproxy.Laws
import Ssproxy.Refine.Run

namespace Ssproxy

open Lib Wire Connection

-- ============================================================================
-- The table
-- ============================================================================

namespace ChannelTable

variable {t t' : ChannelTable} {id : UInt32} {ch ch' : Channel}

/-- An emptied slot is a change. -/
theorem release_ne (h : t.get? id = some ch) : t.release id ≠ t := by
  intro heq
  have hnone := get?_release_self t id
  rw [heq, h] at hnone
  cases hnone

/-- `alloc` with room fills a slot, and without fails on the same table. -/
theorem alloc_room (h : TableOk t) (ch : Channel) :
    (t.hasRoom ∧ ∃ id t', alloc ch t = .ok id t' ∧ t' ≠ t) ∨
      (¬t.hasRoom ∧ ∃ e, alloc ch t = .err e t) := by
  have hmax := t.maxChannels.toNat_lt
  have hbound := h.bound
  have hnat : (UInt32.ofNat t.slots.length).toNat = t.slots.length := by
    rw [UInt32.toNat_ofNat', Nat.mod_eq_of_lt (by omega)]
  rcases alloc_cases h ch with ⟨id, rest, hf, ha⟩ | ⟨id, hf, hid, hroom, ha⟩ | ⟨hf, hfull, e, ha⟩
  · refine .inl ⟨.inl (by rw [hf]; exact List.cons_ne_nil _ _), id, _, ha, fun heq => ?_⟩
    have hlen := congrArg (fun t => t.free.length) heq
    simp only [set, hf, List.length_cons] at hlen
    omega
  · refine .inl ⟨.inr (UInt32.lt_iff_toNat_lt.mpr (by omega)), id, _, ha, fun heq => ?_⟩
    have hlen := congrArg (fun t => t.slots.length) heq
    simp only [slots_length_set, List.length_append, List.length_singleton] at hlen
    omega
  · refine .inr ⟨?_, e, ha⟩
    rintro (hne | hlt)
    · exact hne hf
    · have hlt := UInt32.lt_iff_toNat_lt.mp hlt
      omega

end ChannelTable

-- ============================================================================
-- Messages that are too long
-- ============================================================================

variable [CryptoLib] {c c' : Conn}

/-- A message sent with priority fails just when it is too long, and has drawn
    its padding then. -/
theorem queueMsg_cases (owner : Option UInt32) (payload : Bytes) (c : Conn) (hne : payload ≠ []) :
    (¬c.now.TooLong payload ∧ ∃ c', queueMsg owner payload true c = .ok () c') ∨
      (c.now.TooLong payload ∧ ∃ e, queueMsg owner payload true c
        = .err e ⟨{ c.now with rng := c.now.rng.skip (c.now.padFor payload) }, c.log⟩) := by
  have hrefuses := c.now.seal_refuses payload
  rw [queueMsg_apply hne (.inl rfl)]
  cases hs : c.now.sendCipher.sealBuf c.now.sendSeq (c.now.frame payload)
      (List.replicate c.now.sendCipher.kind.tagLen 0) with
  | error e => exact .inr ⟨hrefuses.mp ⟨e, hs⟩, e, rfl⟩
  | ok r =>
    refine .inl ⟨fun hlong => ?_, _, rfl⟩
    obtain ⟨e, he⟩ := hrefuses.mpr hlong
    rw [hs] at he
    cases he

/-- A short message is never too long. -/
theorem queueMsg_sent (owner : Option UInt32) (payload : Bytes) (c : Conn) (hne : payload ≠ [])
    (hlen : payload.length ≤ 2 ^ 20) : ∃ c', queueMsg owner payload true c = .ok () c' := by
  obtain ⟨c', hq, -⟩ := (queueMsg_short owner payload c hne hlen).exists_ok
  exact ⟨c', hq⟩

-- ============================================================================
-- The five calls
-- ============================================================================

/-- The calls that open, confirm, refuse and end a channel. -/
inductive ChannelCall where
  | openDirectTcpip (host : String) (port : UInt32)
  | confirmOpen (id : UInt32)
  | failOpen (id reason : UInt32) (msg : String)
  | sendEof (id : UInt32)
  | sendClose (id : UInt32)

namespace ChannelCall

def run : ChannelCall → ConnM Unit
  | openDirectTcpip host port => do let _ ← Connection.openDirectTcpip host port
  | confirmOpen id => Connection.confirmOpen id
  | failOpen id reason msg => Connection.failOpen id reason msg
  | sendEof id => Connection.sendEof id
  | sendClose id => Connection.sendClose id

/-- No failure of the call on connection `c` comes after a change: it does not
    confirm a channel that has no remote id and is not confirmed, and does not
    get as far as a message that is too long. -/
def Safe (c : Connection) : ChannelCall → Prop
  | openDirectTcpip host port => c.role = .client → c.authed = true → c.channels.hasRoom →
      ¬c.TooLong (Msg.channelOpen 0 c.window c.maxPacket host port)
  | confirmOpen id => ∀ ch, c.channels.get? id = some ch →
      ch.remoteId = none → ch.openConfirmed = true
  | failOpen id reason msg => ∀ ch r, c.channels.get? id = some ch → ch.remoteId = some r →
      ¬c.TooLong (Msg.openFailure r reason msg)
  | sendEof _ | sendClose _ => True

end ChannelCall

/-- If the run failed, then in the state `c`, but for random bytes drawn. -/
def Untouched {α : Type} (c : Conn) (o : Outcome Conn Error α) : Prop :=
  ∀ e c', o = .err e c' → c'.now = { c.now with rng := c'.now.rng }

omit [CryptoLib] in
theorem untouched_ok {α : Type} (a : α) (c' : Conn) : Untouched c (.ok a c') := by
  intro e c'' h
  cases h

omit [CryptoLib] in
theorem untouched_err {α : Type} (e : Error) : Untouched c (.err e c : Outcome Conn Error α) := by
  rintro e' c' h
  cases h
  rfl

-- ============================================================================
-- Each call
-- ============================================================================

theorem emitEofIfReady_ok (id : UInt32) (c : Conn) : ∃ c', emitEofIfReady id c = .ok () c' := by
  unfold emitEofIfReady
  rw [Proc.bind_of_ok (Traced.read_apply c), Proc.ite_apply]
  split
  · exact ⟨c, rfl⟩
  cases hch : c.now.channels.get? id with
  | none => exact ⟨c, rfl⟩
  | some ch =>
    dsimp only
    rw [Proc.ite_apply]
    split
    · exact ⟨c, rfl⟩
    rw [Proc.bind_of_ok (setChannel_apply _ _ c)]
    cases ch.remoteId with
    | none => exact ⟨_, rfl⟩
    | some r => exact queueMsg_sent (some id) _ _ (by simp) (by simp)

omit [CryptoLib] in
theorem freeIfClosed_ok (id : UInt32) (c : Conn) : ∃ c', (do
    let c ← Traced.read
    if (c.channels.get? id).any fun ch => ch.gotClose && ch.wireClose then freeChannel id
    else return () : ConnM Unit) c = .ok () c' := by
  rw [Proc.bind_of_ok (Traced.read_apply c), Proc.ite_apply]
  split
  · exact ⟨_, freeChannel_apply id c⟩
  · exact ⟨c, rfl⟩

theorem emitCloseIfReady_ok (id : UInt32) (c : Conn) : ∃ c', emitCloseIfReady id c = .ok () c' := by
  unfold emitCloseIfReady
  rw [Proc.bind_of_ok (Traced.read_apply c), Proc.ite_apply]
  split
  · exact ⟨c, rfl⟩
  cases hch : c.now.channels.get? id with
  | none => exact ⟨c, rfl⟩
  | some ch =>
    dsimp only
    rw [Proc.ite_apply]
    split
    · exact ⟨c, rfl⟩
    rw [Proc.ite_apply]
    split
    · rw [Proc.bind_of_ok (Proc.pure_apply _ c)]
      exact freeIfClosed_ok id c
    rw [Proc.bind_of_ok (setChannel_apply _ _ c), Proc.bind_of_ok (Proc.pure_apply _ _)]
    have hsend : ∃ c', Proc.ifSome ch.remoteId
        (fun r => queueMsg (some id) (MsgType.channelClose.code :: putU32 r) true)
        (withChannel c id { ch with wireClose := true, wireEof := true }) = .ok () c' := by
      rcases Option.eq_none_or_eq_some ch.remoteId with hr | ⟨r, hr⟩
      · rw [hr]
        exact ⟨_, rfl⟩
      · rw [hr]
        exact queueMsg_sent (some id) _ _ (by simp) (by simp)
    obtain ⟨c', hsend⟩ := hsend
    obtain ⟨c'', hfree⟩ := freeIfClosed_ok id c'
    exact ⟨c'', (Proc.bind_of_ok hsend).trans hfree⟩

theorem sendEof_untouched (id : UInt32) (c : Conn) : Untouched c (sendEof id c) := by
  unfold sendEof
  rw [Proc.bind_of_ok (Traced.read_apply c)]
  cases hch : c.now.channels.get? id with
  | none =>
    rw [Proc.bind_apply, getChannel_none hch]
    exact untouched_err _
  | some ch =>
    rw [Proc.bind_of_ok (getChannel_some hch), Proc.ite_apply]
    split
    · exact untouched_ok _ _
    rw [Proc.bind_of_ok (setChannel_apply _ _ c), Proc.bind_of_ok (Traced.observe_apply _ _)]
    obtain ⟨c', hemit⟩ := emitEofIfReady_ok id _
    rw [hemit]
    exact untouched_ok _ _

theorem confirmOpen_untouched (id : UInt32) (c : Conn) :
    Untouched c (confirmOpen id c) ↔ (ChannelCall.confirmOpen id).Safe c.now := by
  unfold confirmOpen
  cases hch : c.now.channels.get? id with
  | none =>
    rw [Proc.bind_apply, getChannel_none hch]
    refine ⟨fun _ ch h => ?_, fun _ => untouched_err _⟩
    rw [hch] at h
    cases h
  | some ch =>
    rw [Proc.bind_of_ok (getChannel_some hch), Proc.bind_of_ok (setChannel_apply _ _ c)]
    rcases Option.eq_none_or_eq_some ch.remoteId with hr | ⟨r, hr⟩
    · have hfail : (Proc.okOr ch.remoteId (.protocol "confirm without remote") : ConnM UInt32)
          (withChannel c id { ch with openConfirmed := true })
          = .err (.protocol "confirm without remote")
            (withChannel c id { ch with openConfirmed := true }) := by
        rw [hr]
        rfl
      rw [Proc.bind_apply, hfail, Outcome.bind_err]
      constructor
      · intro h ch' hch' _
        rw [hch] at hch'
        cases hch'
        -- the call wrote the flag: the state is the old one only if it was set
        have hsame := congrArg (fun c => c.channels.get? id) (h _ _ rfl)
        simp only [withChannel, putChannel, ChannelTable.get?_set_self hch] at hsame
        rw [hch] at hsame
        exact (congrArg Channel.openConfirmed (Option.some.inj hsame)).symm
      · intro hsafe e c' herr
        cases herr
        have hch1 : { ch with openConfirmed := true } = ch := by
          rw [← hsafe ch hch hr]
        rw [hch1]
        simp only [withChannel, putChannel, ChannelTable.set_get? hch]
    · rw [Proc.bind_of_ok (okOr_of_eq hr _ _)]
      obtain ⟨c', hq⟩ := queueMsg_sent (some id) (MsgType.channelOpenConfirmation.code ::
          (putU32 r ++ putU32 id ++ putU32 ch.recvMax ++ putU32 ch.maxLocalPacket))
        (withChannel c id { ch with openConfirmed := true }) (by simp) (by simp)
      rw [hq]
      refine ⟨fun _ ch' h hnone => ?_, fun _ => untouched_ok _ _⟩
      rw [hch] at h
      cases h
      rw [hr] at hnone
      cases hnone

theorem sendClose_untouched (id : UInt32) (c : Conn) : Untouched c (sendClose id c) := by
  unfold sendClose
  rw [Proc.bind_of_ok (Traced.read_apply c)]
  cases hch : c.now.channels.get? id with
  | none =>
    rw [Proc.bind_apply, getChannel_none hch]
    exact untouched_err _
  | some ch =>
    rw [Proc.bind_of_ok (getChannel_some hch), Proc.ite_apply]
    split
    · exact untouched_ok _ _
    rw [Proc.bind_of_ok (setChannel_apply _ _ c), Proc.bind_of_ok (Traced.observe_apply _ _)]
    obtain ⟨c', hemit⟩ := emitCloseIfReady_ok id _
    rw [hemit]
    exact untouched_ok _ _

omit [CryptoLib] in
/-- A failure after a change of the table is not untouched. -/
theorem not_untouched {α : Type} {e : Error} {m : ConnM α}
    (herr : m c = .err e c') (htable : c'.now.channels ≠ c.now.channels) : ¬Untouched c (m c) := by
  intro h
  have hsame := h e c' herr
  exact htable (by rw [hsame])

theorem failOpen_untouched (id reason : UInt32) (msg : String) (c : Conn) :
    Untouched c (failOpen id reason msg c) ↔ (ChannelCall.failOpen id reason msg).Safe c.now := by
  cases hch : c.now.channels.get? id with
  | none =>
    have hrun : failOpen id reason msg c = .err (.protocol "no such channel") c := by
      unfold failOpen
      rw [Proc.bind_apply, getChannel_none hch, Outcome.bind_err]
    rw [hrun]
    refine ⟨fun _ ch r h => ?_, fun _ => untouched_err _⟩
    rw [hch] at h
    cases h
  | some ch =>
    rcases Option.eq_none_or_eq_some ch.remoteId with hr | ⟨r, hr⟩
    · have hrun : failOpen id reason msg c = .err (.protocol "fail without remote") c := by
        unfold failOpen
        rw [Proc.bind_of_ok (getChannel_some hch), hr]
        rfl
      rw [hrun]
      refine ⟨fun _ ch' r h hr' => ?_, fun _ => untouched_err _⟩
      rw [hch] at h
      cases h
      rw [hr] at hr'
      cases hr'
    · have hrun : failOpen id reason msg c
          = queueMsg (some id) (Msg.openFailure r reason msg) true (withoutChannel c id) := by
        unfold failOpen
        rw [Proc.bind_of_ok (getChannel_some hch), Proc.bind_of_ok (okOr_of_eq hr _ _),
          Proc.bind_of_ok (freeChannel_apply id c)]
        rfl
      have hsafe : (ChannelCall.failOpen id reason msg).Safe c.now
          ↔ ¬c.now.TooLong (Msg.openFailure r reason msg) := by
        refine ⟨fun h => h ch r hch hr, fun h ch' r' hch' hr' => ?_⟩
        rw [hch] at hch'
        cases hch'
        rw [hr] at hr'
        cases hr'
        exact h
      rw [hsafe]
      rcases queueMsg_cases (some id) (Msg.openFailure r reason msg) (withoutChannel c id)
        (by simp [Msg.openFailure]) with ⟨hshort, c', hq⟩ | ⟨hlong, e, hq⟩
      · rw [hrun, hq]
        exact ⟨fun _ => hshort, fun _ => untouched_ok _ _⟩
      · have hchanged := not_untouched (hrun.trans hq) (ChannelTable.release_ne hch)
        exact ⟨fun h => absurd h hchanged, fun h => absurd hlong h⟩

theorem openDirectTcpip_early {host : String} {port : UInt32}
    (hearly : c.now.role ≠ .client ∨ c.now.authed = false) :
    openDirectTcpip host port c = .err (.protocol "open_direct before ready") c := by
  unfold openDirectTcpip
  rw [Proc.bind_of_ok (Traced.read_apply c), Proc.bind_apply, Proc.failIf_apply, if_pos hearly]
  rfl

/-- `open_direct_tcpip` of a client that has logged in. -/
theorem openDirectTcpip_ready (host : String) (port : UInt32) (hrole : c.now.role = .client)
    (hauth : c.now.authed = true) (ht : TableOk c.now.channels) :
    (¬c.now.channels.hasRoom ∧ ∃ e, openDirectTcpip host port c = .err e c) ∨
      (c.now.channels.hasRoom ∧ ∃ id c1, c1.now.sendCipher = c.now.sendCipher ∧
        c1.now.channels ≠ c.now.channels ∧ openDirectTcpip host port c
          = (do queueMsg (some id) (Msg.channelOpen id c.now.window c.now.maxPacket host port) true
                return id : ConnM UInt32) c1) := by
  have hready : ¬(c.now.role ≠ .client ∨ c.now.authed = false) := by
    rw [hrole, hauth]
    rintro (h | h)
    · exact h rfl
    · cases h
  have hpass : Proc.failIf (c.now.role ≠ .client ∨ c.now.authed = false)
      (Error.protocol "open_direct before ready") c = .ok () c := by
    rw [Proc.failIf_apply, if_neg hready]
  rcases ChannelTable.alloc_room ht { Channel.new 0 .directTcpIp c.now.window c.now.maxPacket 0 0
      with host := some host, port := port } with ⟨hroom, id, t, ha, hne⟩ | ⟨hfull, e, ha⟩
  · refine .inr ⟨hroom, id, ⟨{ c.now with channels := t }, c.log ++ [.opened id]⟩, rfl, hne, ?_⟩
    unfold openDirectTcpip
    refine (Proc.bind_of_ok (Traced.read_apply c)).trans ((Proc.bind_of_ok hpass).trans ?_)
    refine Proc.bind_of_ok ?_
    unfold allocChannel
    rw [Proc.bind_apply]
    unfold Proc.focus
    dsimp only
    rw [ha]
    rfl
  · refine .inl ⟨hfull, e, ?_⟩
    unfold openDirectTcpip
    refine (Proc.bind_of_ok (Traced.read_apply c)).trans ((Proc.bind_of_ok hpass).trans ?_)
    unfold allocChannel
    simp only [Proc.bind_apply]
    unfold Proc.focus
    dsimp only
    rw [ha]
    rfl

theorem openDirectTcpip_untouched (host : String) (port : UInt32) (c : Conn)
    (ht : TableOk c.now.channels) :
    Untouched c (openDirectTcpip host port c)
      ↔ (ChannelCall.openDirectTcpip host port).Safe c.now := by
  by_cases hready : c.now.role = .client ∧ c.now.authed = true
  · obtain ⟨hrole, hauth⟩ := hready
    rcases openDirectTcpip_ready host port hrole hauth ht
      with ⟨hfull, e, hrun⟩ | ⟨hroom, id, c1, hcipher, hne, hrun⟩
    · rw [hrun]
      exact ⟨fun _ _ _ hroom => absurd hroom hfull, fun _ => untouched_err _⟩
    · have hlong : c1.now.TooLong (Msg.channelOpen id c.now.window c.now.maxPacket host port)
          ↔ c.now.TooLong (Msg.channelOpen 0 c.now.window c.now.maxPacket host port) :=
        tooLong_congr (congrArg DirectionKeys.kind hcipher) (by simp [Msg.channelOpen])
      rcases queueMsg_cases (some id)
          (Msg.channelOpen id c.now.window c.now.maxPacket host port) c1
          (by simp [Msg.channelOpen]) with ⟨hshort, c2, hq⟩ | ⟨htoo, e, hq⟩
      · rw [hrun, Proc.bind_of_ok hq]
        exact ⟨fun _ _ _ _ => mt hlong.mpr hshort, fun _ => untouched_ok _ _⟩
      · have herr := hrun.trans (congrArg (Outcome.bind · _) hq)
        have hchanged := not_untouched herr hne
        exact ⟨fun h => absurd h hchanged,
          fun h => absurd (hlong.mp htoo) (h hrole hauth hroom)⟩
  · have hearly : c.now.role ≠ .client ∨ c.now.authed = false := by
      by_contra hno
      obtain ⟨hrole, hauth⟩ := not_or.mp hno
      exact hready ⟨not_not.mp hrole, eq_true_of_ne_false hauth⟩
    rw [openDirectTcpip_early hearly]
    exact ⟨fun _ hrole hauth => absurd ⟨hrole, hauth⟩ hready, fun _ => untouched_err _⟩

omit [CryptoLib] in
/-- The result of a call does not matter. -/
theorem untouched_discard {α : Type} {m : ConnM α} :
    Untouched c ((do let _ ← m : ConnM Unit) c) ↔ Untouched c (m c) := by
  have herr : ∀ e c', (do let _ ← m : ConnM Unit) c = .err e c' ↔ m c = .err e c' := by
    intro e c'
    rw [Proc.bind_apply]
    cases m c with
    | ok a c1 => simp
    | err e1 c1 => simp
    | panic => simp
  exact forall_congr' fun e => forall_congr' fun c' => imp_congr (herr e c') Iff.rfl

/-- In every reachable state, a failure of the call leaves the state as it was
    just where the call is safe. -/
theorem ChannelCall.run_untouched {setup : Setup} (hc : setup.Reaches c) (call : ChannelCall) :
    (∀ e c', call.run c = .err e c' → c'.now = { c.now with rng := c'.now.rng })
      ↔ call.Safe c.now := by
  cases call with
  | openDirectTcpip host port =>
    exact untouched_discard.trans (openDirectTcpip_untouched host port c hc.wellFormed.table)
  | confirmOpen id => exact confirmOpen_untouched id c
  | failOpen id reason msg => exact failOpen_untouched id reason msg c
  | sendEof id => exact ⟨fun _ => trivial, fun _ => sendEof_untouched id c⟩
  | sendClose id => exact ⟨fun _ => trivial, fun _ => sendClose_untouched id c⟩

/-- A client that opened a channel, with no answer yet. -/
def openedClient : List Call :=
  [.recv (Toy.identLine ++ Toy.clearPacket Msg.userauthSuccess), .processIn,
    .openDirectTcpip "h" 80]

omit [CryptoLib] in
/-- There is no channel 7: its confirmation fails at once. -/
theorem confirmOpen_untouched_absent : ∃ c e c',
    @Setup.run Toy.lib (.client Toy.client) Toy.rng openedClient = .ok () c ∧
      @confirmOpen Toy.lib 7 c = .err e c' ∧ c'.now = { c.now with rng := c'.now.rng } := by
  have hpass : (@Setup.run Toy.lib (.client Toy.client) Toy.rng openedClient).passes (fun c =>
      (c.now.channels.get? 7).isNone) = true := by
    decide +kernel
  obtain ⟨_, c, hrun, hpass⟩ := Outcome.exists_of_passes hpass
  have hnone := Option.isNone_iff_eq_none.mp hpass
  have hfail : @confirmOpen Toy.lib 7 c = .err (.protocol "no such channel") c := by
    unfold confirmOpen
    rw [Proc.bind_apply, getChannel_none hnone]
    rfl
  refine ⟨c, _, c, hrun, hfail, (@ChannelCall.run_untouched Toy.lib c _
    (@Setup.Reaches.of_run Toy.lib _ _ _ _ hrun) (.confirmOpen 7)).mpr (fun ch hch => ?_) _ c hfail⟩
  rw [hnone] at hch
  cases hch

omit [CryptoLib] in
/-- The client's own channel cannot be confirmed, but is marked as confirmed. -/
theorem confirmOpen_halfApplied : ∃ c c' e ch,
    @Setup.run Toy.lib (.client Toy.client) Toy.rng openedClient = .ok () c ∧
      @confirmOpen Toy.lib 0 c = .err e c' ∧ c.now.channels.get? 0 = some ch ∧
      ch.openConfirmed = false ∧
      c'.now.channels.get? 0 = some { ch with openConfirmed := true } := by
  have hpass : (@Setup.run Toy.lib (.client Toy.client) Toy.rng openedClient).passes (fun c =>
      (c.now.channels.get? 0).any fun ch =>
        ch.remoteId.isNone && !ch.openConfirmed) = true := by
    decide +kernel
  obtain ⟨_, c, hrun, hc⟩ := Outcome.exists_of_passes hpass
  obtain ⟨ch, hch, hflags⟩ := (Option.any_eq_true _ _).mp hc
  simp only [Bool.and_eq_true, Bool.not_eq_true', Option.isNone_iff_eq_none] at hflags
  refine ⟨c, withChannel c 0 { ch with openConfirmed := true },
    .protocol "confirm without remote", ch, hrun, ?_, hch, hflags.2, withChannel_now_get hch _⟩
  unfold confirmOpen
  rw [Proc.bind_of_ok (getChannel_some hch), Proc.bind_of_ok (setChannel_apply _ _ c), hflags.1]
  rfl

end Ssproxy
