/-
  Ssproxy.Isolation

  What a channel operation leaves alone.  `Elsewhere id f` says that `f` is a
  part of the connection in which neither channel `id` nor the sending side
  shows; every call and every message that concerns channel `id` keeps such a
  part, however it ends.  The slot of another channel is one.
-/

import Ssproxy.Lib.Keeps
import Ssproxy.Laws
import Ssproxy.Refine.Channels
import Ssproxy.Refine.Input

namespace Ssproxy

open Lib Wire Connection Proc

open Traced (read update observe)

variable [CryptoLib] {π α : Type}

/-- `m` leaves the part `f` of the connection alone. -/
abbrev Spared (f : Connection → π) (m : ConnM α) : Prop := Proc.Keeps (fun c : Conn => f c.now) m

/-- Neither channel `id` nor what is sent shows in `f`. -/
structure Elsewhere (id : UInt32) (f : Connection → π) : Prop where
  sent (c : Connection) (payload : Bytes) (cipher : DirectionKeys) (wire : Bytes) :
    f (c.sealed payload cipher wire) = f c
  drew (c : Connection) (r : Rng) : f { c with rng := r } = f c
  put (c : Connection) (ch : Channel) : f (c.putChannel id ch) = f c
  dropped (c : Connection) : f (c.dropChannel id) = f c
  pushed (c : Connection) (ev : Event) : f (c.pushed ev) = f c

namespace Elsewhere

variable {id : UInt32} {f : Connection → π}

-- ============================================================================
-- Reading, writing, sending
-- ============================================================================

theorem queueMsg (h : Elsewhere id f) (owner : Option UInt32) (payload : Bytes)
    (priority : Bool) : Spared f (Connection.queueMsg owner payload priority) := by
  intro c c' hend
  refine Outcome.Sat.of_state (P := fun s => f s.now = f c.now)
    ((queueMsg_sat owner payload priority c).mono ?_ ?_) hend
  · intro _ c1 hq
    cases hq with
    | mk hne hseal => exact h.sent _ _ _ _
  · intro _ c1 hd
    cases hd with
    | mk r => exact h.drew _ r

omit [CryptoLib] in
theorem getChannel (j : UInt32) : Spared f (Connection.getChannel j) :=
  Traced.keeps_read.bind fun _ => keeps_ofExcept _

omit [CryptoLib] in
theorem setChannel (h : Elsewhere id f) (ch : Channel) : Spared f (Connection.setChannel id ch) :=
  Traced.keeps_update fun c => h.put c ch

omit [CryptoLib] in
theorem freeChannel (h : Elsewhere id f) : Spared f (Connection.freeChannel id) := by
  refine Traced.keeps_read.bind fun c => ?_
  cases c.channels.get? id with
  | none => exact keeps_pure ()
  | some ch => exact (Traced.keeps_update h.dropped).bind fun _ => Traced.keeps_observe _

omit [CryptoLib] in
theorem pushEvent (h : Elsewhere id f) (ev : Event) : Spared f (Connection.pushEvent ev) :=
  (Traced.keeps_update fun c => h.pushed c ev).bind fun _ => Traced.keeps_observe _

-- ============================================================================
-- Data
-- ============================================================================

theorem enqueueOrSend (h : Elsewhere id f) (chunk : Bytes) :
    Spared f (Connection.enqueueOrSend id chunk) := by
  refine Traced.keeps_read.bind fun c => (getChannel id).bind fun ch => keeps_ite ?_ ?_
  · exact (getChannel id).bind fun _ => h.setChannel _
  · refine (keeps_unwrap _).bind fun r => keeps_ite ?_ ?_
    · exact (getChannel id).bind fun _ => (keeps_slice _ _ _).bind fun _ =>
        (keeps_checkedSub _ _).bind fun _ => (h.setChannel _).bind fun _ =>
          (getChannel id).bind fun _ => (keeps_checkedSub32 _ _).bind fun _ =>
            (h.setChannel _).bind fun _ => (keeps_slice _ _ _).bind fun _ => h.queueMsg _ _ _
    · exact (getChannel id).bind fun _ => (keeps_checkedSub32 _ _).bind fun _ =>
        (h.setChannel _).bind fun _ => (keeps_slice _ _ _).bind fun _ => h.queueMsg _ _ _

theorem sendLoop (h : Elsewhere id f) (data : Bytes) (fuel sent : Nat) :
    Spared f (Connection.sendLoop id data fuel sent) := by
  induction fuel generalizing sent with
  | zero => exact keeps_pure sent
  | succ fuel ih =>
    refine keeps_ite (Traced.keeps_read.bind fun c => keeps_ite (keeps_pure _) ?_) (keeps_pure _)
    exact (keeps_checkedSub _ _).bind fun _ => (keeps_slice _ _ _).bind fun _ =>
      (h.enqueueOrSend _).bind fun _ => ih _

theorem sendDataNoted (h : Elsewhere id f) (data : Bytes) :
    Spared f (Connection.sendDataNoted id data) :=
  Traced.keeps_read.bind fun _ =>
    Keeps.bind (keeps_ite (keeps_pure 0) (h.sendLoop data _ _)) fun _ => Traced.keeps_observe _

theorem flushOnce (h : Elsewhere id f) : Spared f (Connection.flushOnce id) := by
  refine Traced.keeps_read.bind fun c => ?_
  cases c.channels.get? id with
  | none => exact keeps_pure false
  | some ch =>
    refine keeps_ite (keeps_pure _) (keeps_ite (keeps_pure _) ?_)
    cases ch.pendingOut with
    | nil => exact keeps_pure false
    | cons front queue =>
      refine Keeps.bind (keeps_ite (keeps_pure _) ?_) fun r => ?_
      · exact (keeps_splitAt _ _).bind fun _ => keeps_pure _
      · exact (keeps_checkedSub32 _ _).bind fun _ => (h.setChannel _).bind fun _ =>
          (keeps_unwrap _).bind fun _ => (h.queueMsg _ _ _).succeeds

theorem flushPending (h : Elsewhere id f) : Spared f (Connection.flushPending id) :=
  Traced.keeps_read.bind fun _ => keeps_ite (keeps_pure ()) (h.flushOnce.loop _)

theorem maybeAdjust (h : Elsewhere id f) : Spared f (Connection.maybeAdjust id) := by
  refine Traced.keeps_read.bind fun c => keeps_ite (keeps_pure ()) ?_
  cases c.channels.get? id with
  | none => exact keeps_pure ()
  | some ch =>
    have hamount : Spared f (ch.windowAdjustAmount : ConnM UInt32) :=
      keeps_ite (keeps_pure _) ((keeps_checkedSub32 _ _).bind fun _ =>
        keeps_ite (keeps_pure _) (keeps_pure _))
    refine hamount.bind fun add => keeps_ite (keeps_pure ()) ?_
    exact (keeps_checkedAdd32 _ _).bind fun _ => (h.setChannel _).bind fun _ =>
      keeps_ifSome fun _ => (h.queueMsg _ _ _).ignore

theorem consumeInbound (h : Elsewhere id f) (n : Nat) :
    Spared f (Connection.consumeInbound id n) := by
  refine Traced.keeps_read.bind fun c => ?_
  cases c.channels.get? id with
  | none => exact keeps_pure ()
  | some ch =>
    dsimp only
    cases ch.inQ with
    | nil => exact keeps_pure ()
    | cons front queue =>
      refine keeps_ite ((h.setChannel _).bind fun _ => h.maybeAdjust) ?_
      exact (keeps_splitAt _ _).bind fun _ => (h.setChannel _).bind fun _ => h.maybeAdjust

-- ============================================================================
-- EOF, CLOSE, opening
-- ============================================================================

theorem emitEofIfReady (h : Elsewhere id f) : Spared f (Connection.emitEofIfReady id) := by
  refine Traced.keeps_read.bind fun c => keeps_ite (keeps_pure ()) ?_
  cases c.channels.get? id with
  | none => exact keeps_pure ()
  | some ch =>
    exact keeps_ite (keeps_pure ()) ((h.setChannel _).bind fun _ =>
      keeps_ifSome fun _ => h.queueMsg _ _ _)

theorem emitCloseIfReady (h : Elsewhere id f) : Spared f (Connection.emitCloseIfReady id) := by
  refine Traced.keeps_read.bind fun c => keeps_ite (keeps_pure ()) ?_
  cases c.channels.get? id with
  | none => exact keeps_pure ()
  | some ch =>
    refine keeps_ite (keeps_pure ()) (keeps_ite ?_ ?_)
    · exact (keeps_pure none).bind fun _ => (keeps_ifSome fun _ => h.queueMsg _ _ _).bind fun _ =>
        Traced.keeps_read.bind fun _ => keeps_ite h.freeChannel (keeps_pure ())
    · exact (h.setChannel _).bind fun _ => (keeps_pure _).bind fun _ =>
        (keeps_ifSome fun _ => h.queueMsg _ _ _).bind fun _ =>
          Traced.keeps_read.bind fun _ => keeps_ite h.freeChannel (keeps_pure ())

theorem sendEof (h : Elsewhere id f) : Spared f (Connection.sendEof id) :=
  Traced.keeps_read.bind fun _ => (getChannel id).bind fun _ => keeps_ite (keeps_pure ())
    ((h.setChannel _).bind fun _ => (Traced.keeps_observe _).bind fun _ => h.emitEofIfReady)

theorem sendClose (h : Elsewhere id f) : Spared f (Connection.sendClose id) :=
  Traced.keeps_read.bind fun _ => (getChannel id).bind fun _ => keeps_ite (keeps_pure ())
    ((h.setChannel _).bind fun _ => (Traced.keeps_observe _).bind fun _ => h.emitCloseIfReady)

theorem confirmOpen (h : Elsewhere id f) : Spared f (Connection.confirmOpen id) :=
  (getChannel id).bind fun _ => (h.setChannel _).bind fun _ => (keeps_okOr _ _).bind fun _ =>
    h.queueMsg _ _ _

theorem failOpen (h : Elsewhere id f) (reason : UInt32) (msg : String) :
    Spared f (Connection.failOpen id reason msg) :=
  (getChannel id).bind fun _ => (keeps_okOr _ _).bind fun _ => h.freeChannel.bind fun _ =>
    h.queueMsg _ _ _

end Elsewhere

-- ============================================================================
-- The messages of a channel
-- ============================================================================

/-- The channel a channel message is addressed to: the number behind its first
    byte. -/
def addressee : Bytes → Option UInt32
  | _ :: b0 :: b1 :: b2 :: b3 :: _ => some (ofBe b0 b1 b2 b3)
  | _ => none

omit [CryptoLib] in
theorem addressee_of_prefix {t : UInt8} {id : UInt32} {r : Bytes} :
    addressee (t :: (putU32 id ++ r)) = some id := by
  simp only [putU32, beBytes, List.cons_append, addressee, ofBe_beBytes]

variable {f : Connection → π} {p : Bytes}

omit [CryptoLib] in
/-- The two reads with which the handlers of channel messages begin. -/
theorem spared_header {g : UInt32 × Parser → ConnM α}
    (hg : ∀ id q, addressee p = some id → Spared f (g (id, q))) :
    Spared f (Proc.call Parser.u8 (.new p) >>= fun r => Proc.call Parser.u32 r.2 >>= g) := by
  intro c c' hend
  have h8 := Parser.u8_sat (.new p)
  unfold Proc.call at hend
  rw [Proc.bind_apply] at hend
  cases hp : Parser.u8 (.new p) with
  | err e q =>
    rw [hp] at hend
    cases hend
    rfl
  | panic =>
    rw [hp] at hend
    cases hend
  | ok t q =>
    rw [hp] at h8 hend
    simp only [Outcome.bind_ok, Proc.bind_apply] at hend
    have h32 := Parser.u32_sat q
    cases hq : Parser.u32 q with
    | err e q' =>
      rw [hq] at hend
      cases hend
      rfl
    | panic =>
      rw [hq] at hend
      cases hend
    | ok id q' =>
      rw [hq] at h32 hend
      refine hg id q' ?_ c c' hend
      rw [← Parser.rest_new p, (h8 : _ = _), (h32 : _ = _)]
      exact addressee_of_prefix

section Messages

variable (h : ∀ id, addressee p = some id → Elsewhere id f)
include h

theorem spared_onOpenConfirm : Spared f (onOpenConfirm p) :=
  spared_header fun id _ hid => (keeps_call _ _).bind fun _ => (keeps_call _ _).bind fun _ =>
    (keeps_call _ _).bind fun _ => (Elsewhere.getChannel id).bind fun _ =>
      ((h id hid).setChannel _).bind fun _ => ((h id hid).pushEvent _).bind fun _ =>
        (h id hid).flushPending

omit [CryptoLib] in
theorem spared_onOpenFail : Spared f (onOpenFail p) :=
  spared_header fun id _ hid => (keeps_call _ _).bind fun _ => (keeps_callOr _ _ _).bind fun _ =>
    (h id hid).freeChannel.bind fun _ => (h id hid).pushEvent _

theorem spared_onWindowAdjust : Spared f (onWindowAdjust p) :=
  spared_header fun id _ hid => (keeps_call _ _).bind fun _ =>
    (Elsewhere.getChannel id).bind fun _ => ((h id hid).setChannel _).bind fun _ =>
      (h id hid).flushPending

omit [CryptoLib] in
theorem spared_deliver {id : UInt32} (hid : addressee p = some id) (data : Bytes) :
    Spared f (deliver id data) :=
  (Elsewhere.getChannel id).bind fun _ => (keeps_call _ _).bind fun _ =>
    ((h id hid).setChannel _).bind fun _ => (h id hid).pushEvent _

omit [CryptoLib] h in
theorem keeps_beU32 (b : Bytes) : Spared f (beU32 b) := by
  unfold beU32
  split
  · exact keeps_pure _
  · exact static_abort.keeps

omit [CryptoLib] in
/-- The handler of DATA slices where the others parse. -/
theorem spared_onChannelData : Spared f (onChannelData p) := by
  by_cases hshort : p.length < 9
  · intro c c' hend
    unfold onChannelData at hend
    rw [Proc.bind_apply, Proc.failIf_apply, if_pos hshort] at hend
    cases hend
    rfl
  · obtain ⟨t, id, len, r, hp⟩ := exists_header (Nat.le_of_not_lt hshort)
    have hid : addressee p = some id := by
      rw [hp, List.append_assoc]
      exact addressee_of_prefix
    have hslice : (p.drop 1).take (5 - 1) = beBytes id := by
      rw [hp]
      rfl
    refine (keeps_failIf _ _).bind fun _ => ?_
    intro c c' hend
    rw [Proc.bind_of_ok (Proc.slice_of_le (by omega) (by omega) c), hslice,
      Proc.bind_of_ok (beU32_beBytes id c)] at hend
    refine Keeps.bind (f := fun c : Conn => f c.now) (keeps_slice _ _ _) (fun b => ?_) c c' hend
    exact (keeps_beU32 b).bind fun _ => (keeps_failIf _ _).bind fun _ =>
      (keeps_slice _ _ _).bind fun _ => spared_deliver h hid _

omit [CryptoLib] in
theorem spared_onExtData : Spared f (onExtData p) :=
  spared_header fun _ _ hid => (keeps_call _ _).bind fun _ => (keeps_call _ _).bind fun _ =>
    spared_deliver h hid _

omit [CryptoLib] in
theorem spared_onChannelEof : Spared f (onChannelEof p) := by
  refine spared_header fun id _ hid => Traced.keeps_read.bind fun c => ?_
  cases c.channels.get? id with
  | none => exact (h id hid).pushEvent _
  | some ch => exact ((h id hid).setChannel _).bind fun _ => (h id hid).pushEvent _

theorem spared_onChannelClose : Spared f (onChannelClose p) := by
  refine spared_header fun id _ hid => Traced.keeps_read.bind fun c => ?_
  cases c.channels.get? id with
  | none => exact keeps_pure ()
  | some ch =>
    refine ((h id hid).setChannel _).bind fun _ => keeps_ite ?_ ?_
    · exact (h id hid).sendClose.ignore.bind fun _ => (h id hid).pushEvent _
    · exact (h id hid).emitCloseIfReady.ignore.bind fun _ => (h id hid).pushEvent _

theorem spared_onChannelRequest : Spared f (onChannelRequest p) := by
  refine spared_header fun id _ hid => (keeps_callOr _ _ _).bind fun _ =>
    (keeps_callOr _ _ _).bind fun _ => keeps_ite (keeps_pure ()) (Traced.keeps_read.bind fun c => ?_)
  cases (c.channels.get? id).bind (·.remoteId) with
  | none => exact keeps_pure ()
  | some r => exact (h id hid).queueMsg _ _ _

end Messages

-- ============================================================================
-- Isolation
-- ============================================================================

/-- The messages that are addressed to a channel. -/
def channelMessages : List MsgType :=
  [.channelOpenConfirmation, .channelOpenFailure, .channelWindowAdjust, .channelData,
   .channelExtendedData, .channelEof, .channelClose, .channelRequest]

/-- The channel a call is about. -/
def Call.target : Call → Option UInt32
  | .sendData id _ | .consumeInbound id _ | .sendEof id | .sendClose id | .confirmOpen id
  | .failOpen id _ _ => some id
  | _ => none

omit [CryptoLib] in
/-- The slot of channel `j` is elsewhere, seen from every other channel. -/
theorem elsewhere_slot {i j : UInt32} (h : j ≠ i) :
    Elsewhere i fun c => c.channels.get? j where
  sent _ _ _ _ := rfl
  drew _ _ := rfl
  put _ _ := ChannelTable.get?_set_ne h
  dropped c := ChannelTable.get?_release_ne c.channels h
  pushed _ _ := rfl

/-- The handler of a channel message. -/
theorem spared_handlePayload {f : Connection → π} {m : MsgType} {p : Bytes}
    (hm : IsMsg m p) (hmem : m ∈ channelMessages)
    (h : ∀ id, addressee p = some id → Elsewhere id f) : Spared f (handlePayload p) := by
  obtain ⟨t, r, rfl⟩ : ∃ t r, p = t :: r := by
    cases p with
    | nil => cases hm
    | cons t r => exact ⟨t, r, rfl⟩
  have ht : MsgType.ofCode t = some m := by
    rw [Option.some.inj hm, MsgType.ofCode_code]
  intro c c' hend
  unfold handlePayload at hend
  rw [Proc.bind_of_ok (Proc.index_of_lt (Nat.zero_lt_succ _) c)] at hend
  simp only [List.getElem_cons_zero, ht] at hend
  simp only [channelMessages, List.mem_cons, List.not_mem_nil, or_false] at hmem
  rcases hmem with rfl | rfl | rfl | rfl | rfl | rfl | rfl | rfl
  · exact spared_onOpenConfirm h c c' hend
  · exact spared_onOpenFail h c c' hend
  · exact spared_onWindowAdjust h c c' hend
  · exact spared_onChannelData h c c' hend
  · exact spared_onExtData h c c' hend
  · exact spared_onChannelEof h c c' hend
  · exact spared_onChannelClose h c c' hend
  · exact spared_onChannelRequest h c c' hend

/-- A call about one channel. -/
theorem spared_call {f : Connection → π} {call : Call} {i : UInt32} (ht : call.target = some i)
    (h : Elsewhere i f) : Spared f call.run := by
  cases call <;> cases ht
  · exact h.consumeInbound _
  · exact h.sendDataNoted _
  · exact h.sendEof
  · exact h.sendClose
  · exact h.confirmOpen
  · exact h.failOpen _ _

/-- Whatever is done to channel `i`, by the peer or by the application, and
    however it ends: the slot of channel `j` is what it was. -/
theorem channels_isolated (c c' : Conn) (i j : UInt32) (hij : j ≠ i) :
    (∀ (m : MsgType) (p : Bytes), m ∈ channelMessages → IsMsg m p → addressee p = some i →
      (handlePayload p c).state? = some c' →
      c'.now.channels.get? j = c.now.channels.get? j) ∧
    ∀ call : Call, call.target = some i → (call.run c).state? = some c' →
      c'.now.channels.get? j = c.now.channels.get? j := by
  refine ⟨fun m p hmem hm hto hend => ?_, fun call ht hend => ?_⟩
  · refine spared_handlePayload (f := fun c => c.channels.get? j) hm hmem (fun id hid => ?_)
      c c' hend
    rw [hto] at hid
    cases hid
    exact elsewhere_slot hij
  · exact spared_call (f := fun c => c.channels.get? j) ht (elsewhere_slot hij) c c' hend

/-- A server with two live channels. -/
def twoChannels : Conn :=
  let c := (Setup.server Toy.server).blank Toy.rng
  ⟨{ c with channels :=
      ⟨[some (.new 0 .session 1 1 1 1), some (.new 1 .session 2 2 2 2)], [], 4⟩ }, []⟩

omit [CryptoLib] in
theorem channels_isolated_twoChannels :
    ∃ c', (@Call.run Toy.lib (.sendClose 0) twoChannels).state? = some c' ∧
      c'.now.channels.get? 1 = some (.new 1 .session 2 2 2 2) := by
  let _ := Toy.lib
  have hruns : ((Call.sendClose 0).run twoChannels).passes (fun _ => true) = true := by
    decide +kernel
  obtain ⟨_, c', hrun, -⟩ := Outcome.exists_of_passes hruns
  have hend : ((Call.sendClose 0).run twoChannels).state? = some c' := by rw [hrun]; rfl
  exact ⟨c', hend, (channels_isolated twoChannels c' 0 1 (by decide)).2 (.sendClose 0) rfl hend⟩

end Ssproxy
