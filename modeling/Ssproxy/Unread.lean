/-
  Ssproxy.Unread

  What runs above the packet layer does not see `read_buf`.  `Abreast r r'`
  relates two connections that differ in `read_buf` only, and `Unread` says
  that a procedure does the same from both; here every handler is shown to, one
  lemma for each procedure in the order of the model.

  A state in the history shows `read_buf`, so the history is compared by the
  payloads handled.
-/

import Ssproxy.Lib.Agree
import Ssproxy.Machine.Runs

namespace Ssproxy

open Lib Wire Connection Proc

open Traced (read update observe)

variable {α β : Type} {r r' : Bytes}

-- ============================================================================
-- Two connections side by side
-- ============================================================================

/-- The same connection, with `r` in the one `read_buf` and `r'` in the other,
    and the same payloads handled. -/
structure Abreast (r r' : Bytes) (c c' : Conn) : Prop where
  buf : c.now.readBuf = r
  ready : c.now.identInDone = true
  now : c'.now = { c.now with readBuf := r' }
  handled : payloads c'.log = payloads c.log

/-- `m` does the same with `r` in `read_buf` as with `r'`. -/
abbrev Unread (r r' : Bytes) (m : ConnM α) : Prop := Proc.Respects (Abreast r r') m m

/-- A procedure that neither reads nor changes `read_buf`. -/
def Blind (m : ConnM Unit) : Prop := ∀ r r', Unread r r' m

/-- An update that neither reads nor changes `read_buf`. -/
def Spares (f : Connection → Connection) : Prop :=
  ∀ (k : Connection) (r : Bytes), (f k).readBuf = k.readBuf ∧
    (f k).identInDone = k.identInDone ∧ f { k with readBuf := r } = { f k with readBuf := r }

theorem Spares.respects {f : Connection → Connection} (hf : Spares f) :
    Unread r r' (update f) := by
  intro c c' h
  obtain ⟨hb, hi, hr⟩ := hf c.now r'
  refine ⟨rfl, hb.trans h.buf, hi.trans h.ready, ?_, h.handled⟩
  show f c'.now = _
  rw [h.now, hr]

/-- What is done with the state read: the other side reads it with `r'`. -/
theorem respects_read {f f' : Connection → ConnM α}
    (hf : ∀ k : Connection, Proc.Respects (Abreast r r') (f k) (f' { k with readBuf := r' })) :
    Proc.Respects (Abreast r r') (read >>= f) (read >>= f') := by
  intro c c' h
  rw [Proc.bind_of_ok (Traced.read_apply c), Proc.bind_of_ok (Traced.read_apply c'), h.now]
  exact hf c.now c c' h

/-- Nothing that is done with the state read depends on `read_buf`. -/
theorem unread_read {f : Connection → ConnM α}
    (hspare : ∀ (k : Connection) (s : Bytes), f { k with readBuf := s } = f k)
    (hf : ∀ k, Unread r r' (f k)) : Unread r r' (read >>= f) := by
  refine respects_read fun k => ?_
  rw [hspare k r']
  exact hf k

theorem unread_pure (a : α) : Unread r r' (pure a) := (static_pure a).respects

theorem unread_observe {o o' : Obs} (h : payloads [o'] = payloads [o]) :
    Proc.Respects (Abreast r r') (observe o : ConnM Unit) (observe o') := by
  intro c c' hc
  refine ⟨rfl, hc.buf, hc.ready, hc.now, ?_⟩
  show payloads (c'.log ++ [o']) = payloads (c.log ++ [o])
  rw [payloads_append, payloads_append, hc.handled, h]

-- ============================================================================
-- State and output
-- ============================================================================

theorem unread_fillBytes (n : Nat) : Unread r r' (fillBytes n) :=
  unread_read (fun _ _ => rfl) fun _ =>
    Respects.bind (Spares.respects fun _ _ => ⟨rfl, rfl, rfl⟩) fun _ => unread_pure _

theorem unread_getChannel (id : UInt32) : Unread r r' (getChannel id) :=
  unread_read (fun _ _ => rfl) fun _ => (static_ofExcept _).respects

theorem unread_setChannel (id : UInt32) (ch : Channel) : Unread r r' (setChannel id ch) :=
  Spares.respects fun _ _ => ⟨rfl, rfl, rfl⟩

theorem unread_allocChannel (ch : Channel) : Unread r r' (allocChannel ch) := by
  refine Respects.bind (Respects.focus ?_ ?_ _) fun id => ?_
  · intro c c' h
    rw [h.now]
  · intro t c c' h
    refine ⟨h.buf, h.ready, ?_, h.handled⟩
    simp only [h.now]
  · exact Respects.bind (unread_observe rfl) fun _ => unread_pure id

theorem unread_freeChannel (id : UInt32) : Unread r r' (freeChannel id) := by
  refine unread_read (fun _ _ => rfl) fun k => ?_
  cases k.channels.get? id with
  | none => exact unread_pure ()
  | some ch =>
    exact Respects.bind (Spares.respects fun _ _ => ⟨rfl, rfl, rfl⟩) fun _ => unread_observe rfl

theorem unread_pushEvent (ev : Event) : Unread r r' (pushEvent ev) :=
  Respects.bind (Spares.respects fun _ _ => ⟨rfl, rfl, rfl⟩) fun _ => unread_observe rfl

variable [CryptoLib]

theorem unread_queueMsg (owner : Option UInt32) (payload : Bytes) (priority : Bool) :
    Unread r r' (queueMsg owner payload priority) := by
  -- the state read goes into the history
  refine respects_read fun k => ?_
  refine (static_failIf _).respects.bind fun _ => ?_
  refine (static_failIf _).respects.bind fun _ => ?_
  refine (static_copyInto _ _ _).respects.bind fun _ => ?_
  refine (static_copyInto _ _ _).respects.bind fun _ => ?_
  refine (static_copyInto _ _ _).respects.bind fun _ => ?_
  refine (unread_fillBytes _).bind fun _ => ?_
  refine (static_copyInto _ _ _).respects.bind fun _ => ?_
  refine (static_splitAt _ _).respects.bind fun _ => ?_
  refine (static_ofExcept _).respects.bind fun _ => ?_
  refine Respects.bind (Spares.respects fun _ _ => ⟨rfl, rfl, rfl⟩) fun _ => ?_
  exact unread_observe rfl

-- ============================================================================
-- Channels
-- ============================================================================

theorem unread_flushOnce (id : UInt32) : Unread r r' (flushOnce id) := by
  refine unread_read (fun _ _ => rfl) fun k => ?_
  cases k.channels.get? id with
  | none => exact unread_pure false
  | some ch =>
    refine Respects.ite (unread_pure _) (Respects.ite (unread_pure _) ?_)
    cases ch.pendingOut with
    | nil => exact unread_pure false
    | cons front queue =>
      refine Respects.bind (static_ite (static_pure _) ?_).respects fun _ => ?_
      · exact (static_splitAt _ _).bind fun _ => static_pure _
      · exact (static_checkedSub32 _ _).respects.bind fun _ => (unread_setChannel _ _).bind fun _ =>
          (static_unwrap _).respects.bind fun _ => (unread_queueMsg _ _ _).succeeds

theorem unread_flushPending (id : UInt32) : Unread r r' (flushPending id) :=
  unread_read (fun _ _ => rfl) fun _ =>
    Respects.ite (unread_pure ()) ((unread_flushOnce id).loop _)

theorem unread_maybeAdjust (id : UInt32) : Unread r r' (maybeAdjust id) := by
  refine unread_read (fun _ _ => rfl) fun k => Respects.ite (unread_pure ()) ?_
  cases k.channels.get? id with
  | none => exact unread_pure ()
  | some ch =>
    have hamount : Static (ch.windowAdjustAmount : ConnM UInt32) :=
      static_ite (static_pure _) ((static_checkedSub32 _ _).bind fun _ =>
        static_ite (static_pure _) (static_pure _))
    refine hamount.respects.bind fun add => Respects.ite (unread_pure ()) ?_
    exact (static_checkedAdd32 _ _).respects.bind fun _ => (unread_setChannel _ _).bind fun _ =>
      Respects.ifSome fun _ => (unread_queueMsg _ _ _).ignore

theorem unread_emitEofIfReady (id : UInt32) : Unread r r' (emitEofIfReady id) := by
  refine unread_read (fun _ _ => rfl) fun k => Respects.ite (unread_pure ()) ?_
  cases k.channels.get? id with
  | none => exact unread_pure ()
  | some ch =>
    exact Respects.ite (unread_pure ()) ((unread_setChannel _ _).bind fun _ =>
      Respects.ifSome fun _ => unread_queueMsg _ _ _)

theorem unread_emitCloseIfReady (id : UInt32) : Unread r r' (emitCloseIfReady id) := by
  refine unread_read (fun _ _ => rfl) fun k => Respects.ite (unread_pure ()) ?_
  cases k.channels.get? id with
  | none => exact unread_pure ()
  | some ch =>
    have hend : ∀ remote : Option UInt32, Unread r r' (do
        Proc.ifSome remote fun r =>
          queueMsg (some id) (MsgType.channelClose.code :: putU32 r) true
        let c ← read
        if (c.channels.get? id).any fun ch => ch.gotClose && ch.wireClose then
          freeChannel id
        else return ()) := fun remote =>
      (Respects.ifSome fun _ => unread_queueMsg _ _ _).bind fun _ =>
        unread_read (fun _ _ => rfl) fun _ => Respects.ite (unread_freeChannel id) (unread_pure ())
    refine Respects.ite (unread_pure ()) (Respects.ite ?_ ?_)
    · exact (unread_pure none).bind hend
    · exact (unread_setChannel _ _).bind fun _ => (unread_pure _).bind hend

theorem unread_sendClose (id : UInt32) : Unread r r' (sendClose id) := by
  refine respects_read fun k => (unread_getChannel id).bind fun ch =>
    Respects.ite (unread_pure ()) ?_
  exact (unread_setChannel _ _).bind fun _ => Respects.bind (unread_observe rfl) fun _ =>
    unread_emitCloseIfReady id

-- ============================================================================
-- Key exchange
-- ============================================================================

theorem unread_startKex : Unread r r' startKex := by
  refine unread_read (fun _ _ => rfl) fun k => (unread_fillBytes 16).bind fun cookie => ?_
  refine (unread_queueMsg _ _ _).bind fun _ => ?_
  refine Respects.bind (Spares.respects fun _ _ => ⟨rfl, rfl, rfl⟩) fun _ => ?_
  refine Respects.bind ?_ fun _ => Spares.respects fun _ _ => ⟨rfl, rfl, rfl⟩
  refine unread_read (fun _ _ => rfl) fun k => Respects.ite ?_ (unread_pure _)
  exact (unread_fillBytes 32).bind fun _ => unread_pure _

theorem unread_maybeStartKex : Unread r r' maybeStartKex :=
  unread_read (fun _ _ => rfl) fun _ => Respects.ite (unread_pure ()) unread_startKex.ignore

theorem unread_flushPostRekey : Unread r r' flushPostRekey := by
  refine unread_read (fun _ _ => rfl) fun k => Respects.forEach (fun id => ?_) _
  exact (unread_maybeAdjust id).bind fun _ => (unread_flushPending id).bind fun _ =>
    (unread_emitEofIfReady id).ignore.bind fun _ => (unread_emitCloseIfReady id).ignore

theorem unread_tryCompleteKex : Unread r r' tryCompleteKex := by
  refine respects_read fun k => Respects.ite (unread_pure ()) ?_
  refine Respects.bind (Spares.respects fun _ _ => ⟨rfl, rfl, rfl⟩) fun _ => ?_
  refine Respects.bind (unread_observe rfl) fun _ => Respects.ite ?_ ?_
  · refine Respects.bind (Spares.respects fun _ _ => ⟨rfl, rfl, rfl⟩) fun _ => ?_
    refine Respects.ite (Respects.bind (unread_queueMsg _ _ _) fun _ => ?_) ?_
    · exact Respects.ite (unread_queueMsg _ _ _) (unread_pure ())
    · exact Respects.ite (unread_queueMsg _ _ _) (unread_pure ())
  · refine Respects.bind (Spares.respects fun _ _ => ⟨rfl, rfl, rfl⟩) fun _ => ?_
    exact unread_flushPostRekey.bind fun _ => Spares.respects fun _ _ => ⟨rfl, rfl, rfl⟩

omit [CryptoLib] in
theorem spares_switchSend : Spares switchSend := by
  intro k s
  cases hkeys : k.pendingKeys <;> cases hstrict : k.strictKex <;>
    simp only [switchSend, hkeys, hstrict, if_true, Bool.false_eq_true, if_false, and_self]

theorem unread_sendNewkeys : Unread r r' sendNewkeys :=
  (unread_queueMsg _ _ _).bind fun _ => spares_switchSend.respects.bind fun _ =>
    unread_tryCompleteKex

theorem unread_onNewkeys : Unread r r' onNewkeys := by
  refine unread_read (fun _ _ => rfl) fun k => ?_
  cases k.pendingKeys with
  | none => exact (static_throw _).respects
  | some pk =>
    exact Respects.bind (Spares.respects fun _ _ => ⟨rfl, rfl, rfl⟩) fun _ => unread_tryCompleteKex

theorem unread_onKexinit (payload : Bytes) : Unread r r' (onKexinit payload) := by
  refine Respects.bind ?_ fun theirs => Respects.bind ?_ fun _ => ?_
  · exact ((static_call _ _).bind fun _ => static_pure _).respects
  · exact unread_read (fun _ _ => rfl) fun _ => Respects.ite unread_startKex (unread_pure ())
  refine unread_read (fun _ _ => rfl) fun k => ?_
  refine (static_unwrap _).respects.bind fun kex => ?_
  refine (static_okOr _ _).respects.bind fun c2s => (static_okOr _ _).respects.bind fun s2c => ?_
  refine (static_okOr _ _).respects.bind fun host => (static_failIf _).respects.bind fun _ => ?_
  refine (static_okOr _ _).respects.bind fun _ => (static_okOr _ _).respects.bind fun _ => ?_
  refine Respects.bind (Spares.respects fun _ _ => ⟨rfl, rfl, rfl⟩) fun _ => ?_
  refine Respects.bind (Spares.respects fun _ _ => ⟨rfl, rfl, rfl⟩) fun _ => Respects.ite ?_ (unread_pure ())
  exact unread_read (fun _ _ => rfl) fun _ => (static_okOr _ _).respects.bind fun _ =>
    unread_queueMsg _ _ _

theorem static_makeKeys (kMpint h sid : Bytes) (keyLetter ivLetter : UInt8)
    (kind : CipherKind) :
    Static (makeKeys kMpint h sid keyLetter ivLetter kind : ConnM DirectionKeys) := by
  unfold makeKeys
  refine static_ite (Static.bind (static_slice _ _ _) fun key => ?_)
    (Static.bind (static_pure _) fun key => ?_)
  · exact Static.bind (static_slice _ _ _) fun _ => static_ofExcept _
  · exact Static.bind (static_slice _ _ _) fun _ => static_ofExcept _

theorem unread_finishKex (qC qS shared : Block 32) : Unread r r' (finishKex qC qS shared) := by
  refine unread_read (fun _ _ => rfl) fun k => (static_okOr _ _).respects.bind fun kex => ?_
  refine (static_okOr _ _).respects.bind fun theirs => (static_unwrap _).respects.bind fun _ => ?_
  refine (static_okOr _ _).respects.bind fun ks => ?_
  refine Respects.bind (Spares.respects fun _ _ => ⟨rfl, rfl, rfl⟩) fun _ => ?_
  refine unread_read (fun _ _ => rfl) fun k => (static_unwrap _).respects.bind fun sid => ?_
  refine (static_okOr _ _).respects.bind fun c2s => (static_okOr _ _).respects.bind fun s2c => ?_
  refine (static_makeKeys _ _ _ _ _ _).respects.bind fun _ => ?_
  refine (static_makeKeys _ _ _ _ _ _).respects.bind fun _ => ?_
  exact Spares.respects fun _ _ => ⟨rfl, rfl, rfl⟩

theorem unread_onEcdhInit (payload : Bytes) : Unread r r' (onEcdhInit payload) := by
  refine unread_read (fun _ _ => rfl) fun k => (static_failIf _).respects.bind fun _ => ?_
  refine (static_call _ _).respects.bind fun _ => (static_failIf _).respects.bind fun _ => ?_
  refine (static_call _ _).respects.bind fun _ => (static_failIf _).respects.bind fun _ => ?_
  refine (static_unwrap _).respects.bind fun qC => (unread_fillBytes 32).bind fun secret => ?_
  refine (static_failIf _).respects.bind fun _ => (static_failIf _).respects.bind fun _ => ?_
  refine (static_unwrap _).respects.bind fun cfg => ?_
  refine Respects.bind (Spares.respects fun _ _ => ⟨rfl, rfl, rfl⟩) fun _ => ?_
  refine (unread_finishKex _ _ _).bind fun _ => unread_read (fun _ _ => rfl) fun _ => ?_
  exact (static_unwrap _).respects.bind fun h => (unread_queueMsg _ _ _).bind fun _ =>
    unread_sendNewkeys

theorem unread_onEcdhReply (payload : Bytes) : Unread r r' (onEcdhReply payload) := by
  refine unread_read (fun _ _ => rfl) fun k => (static_failIf _).respects.bind fun _ => ?_
  refine (static_call _ _).respects.bind fun _ => (static_failIf _).respects.bind fun _ => ?_
  refine (static_call _ _).respects.bind fun _ => (static_call _ _).respects.bind fun _ => ?_
  refine (static_call _ _).respects.bind fun _ => (static_failIf _).respects.bind fun _ => ?_
  refine (static_unwrap _).respects.bind fun qS => (static_okOr _ _).respects.bind fun qC => ?_
  refine (static_okOr _ _).respects.bind fun secret => ?_
  refine Respects.bind (Spares.respects fun _ _ => ⟨rfl, rfl, rfl⟩) fun _ => ?_
  refine (static_failIf _).respects.bind fun _ => ?_
  refine Respects.bind (Spares.respects fun _ _ => ⟨rfl, rfl, rfl⟩) fun _ => ?_
  exact (unread_finishKex _ _ _).bind fun _ => unread_sendNewkeys

-- ============================================================================
-- Service and user authentication
-- ============================================================================

theorem unread_disconnect (reason : UInt32) (msg : String) :
    Unread r r' (disconnect reason msg) := by
  refine unread_read (fun _ _ => rfl) fun k => Respects.ite (unread_pure ()) ?_
  refine (unread_queueMsg _ _ _).ignore.bind fun _ => ?_
  exact Respects.bind (Spares.respects fun _ _ => ⟨rfl, rfl, rfl⟩) fun _ => unread_pushEvent _

theorem unread_onServiceRequest (payload : Bytes) : Unread r r' (onServiceRequest payload) := by
  refine unread_read (fun _ _ => rfl) fun k => Respects.ite (unread_pure ()) ?_
  refine (static_call _ _).respects.bind fun _ => (static_call _ _).respects.bind fun _ => ?_
  exact (static_failIf _).respects.bind fun _ => unread_queueMsg _ _ _

theorem unread_onServiceAccept : Unread r r' onServiceAccept :=
  unread_read (fun _ _ => rfl) fun _ => Respects.ite (unread_pure ())
    ((static_unwrap _).respects.bind fun _ => unread_queueMsg _ _ _)

theorem unread_authFail (cfg : ServerConfig) : Unread r r' (authFail cfg) :=
  unread_read (fun _ _ => rfl) fun _ =>
    Respects.ite (unread_disconnect _ _) (unread_queueMsg _ _ _)

theorem unread_onUserauthRequest (payload : Bytes) : Unread r r' (onUserauthRequest payload) := by
  refine respects_read fun k => Respects.ite (unread_pure ()) ?_
  refine (static_unwrap _).respects.bind fun cfg => (static_call _ _).respects.bind fun _ => ?_
  refine (static_call _ _).respects.bind fun _ => (static_call _ _).respects.bind fun _ => ?_
  refine (static_call _ _).respects.bind fun _ => (static_failIf _).respects.bind fun _ => ?_
  refine Respects.ite (unread_authFail cfg) (Respects.ite (unread_authFail cfg) ?_)
  refine (static_call _ _).respects.bind fun _ => Respects.ite (unread_authFail cfg) ?_
  refine (static_call _ _).respects.bind fun _ => ?_
  refine Respects.bind (unread_observe rfl) fun _ => Respects.ite ?_ ?_
  · refine Respects.bind (Spares.respects fun _ _ => ⟨rfl, rfl, rfl⟩) fun _ => ?_
    refine Respects.bind (unread_observe rfl) fun _ => ?_
    exact (unread_queueMsg _ _ _).bind fun _ => unread_pushEvent _
  · exact Respects.bind (Spares.respects fun _ _ => ⟨rfl, rfl, rfl⟩) fun _ => unread_authFail cfg

omit [CryptoLib] in
theorem unread_onUserauthSuccess : Unread r r' onUserauthSuccess := by
  refine respects_read fun k => ?_
  refine Respects.bind (Spares.respects fun _ _ => ⟨rfl, rfl, rfl⟩) fun _ => ?_
  exact Respects.bind (unread_observe rfl) fun _ => unread_pushEvent _

-- ============================================================================
-- Channel messages
-- ============================================================================

theorem unread_onGlobalRequest (payload : Bytes) : Unread r r' (onGlobalRequest payload) := by
  refine (static_call _ _).respects.bind fun _ => (static_callOr _ _ _).respects.bind fun _ => ?_
  refine (static_callOr _ _ _).respects.bind fun _ => Respects.ite ?_ (unread_pure ())
  exact Respects.ite (unread_queueMsg _ _ _) (unread_queueMsg _ _ _)

theorem unread_onChannelOpen (payload : Bytes) : Unread r r' (onChannelOpen payload) := by
  refine unread_read (fun _ _ => rfl) fun k => (static_failIf _).respects.bind fun _ => ?_
  refine (static_call _ _).respects.bind fun _ => (static_call _ _).respects.bind fun _ => ?_
  refine (static_call _ _).respects.bind fun _ => (static_call _ _).respects.bind fun _ => ?_
  refine (static_call _ _).respects.bind fun _ => Respects.ite ?_ (Respects.ite ?_ ?_)
  · exact (unread_allocChannel _).bind fun _ => unread_pushEvent _
  · refine (static_call _ _).respects.bind fun _ => (static_call _ _).respects.bind fun _ => ?_
    refine (static_call _ _).respects.bind fun _ => (static_call _ _).respects.bind fun _ => ?_
    exact (unread_allocChannel _).bind fun _ => unread_pushEvent _
  · exact unread_queueMsg _ _ _

theorem unread_onOpenConfirm (payload : Bytes) : Unread r r' (onOpenConfirm payload) := by
  refine (static_call _ _).respects.bind fun _ => (static_call _ _).respects.bind fun _ => ?_
  refine (static_call _ _).respects.bind fun _ => (static_call _ _).respects.bind fun _ => ?_
  refine (static_call _ _).respects.bind fun _ => (unread_getChannel _).bind fun _ => ?_
  exact (unread_setChannel _ _).bind fun _ => (unread_pushEvent _).bind fun _ =>
    unread_flushPending _

omit [CryptoLib] in
theorem unread_onOpenFail (payload : Bytes) : Unread r r' (onOpenFail payload) := by
  refine (static_call _ _).respects.bind fun _ => (static_call _ _).respects.bind fun _ => ?_
  refine (static_call _ _).respects.bind fun _ => (static_callOr _ _ _).respects.bind fun _ => ?_
  exact (unread_freeChannel _).bind fun _ => unread_pushEvent _

theorem unread_onWindowAdjust (payload : Bytes) : Unread r r' (onWindowAdjust payload) := by
  refine (static_call _ _).respects.bind fun _ => (static_call _ _).respects.bind fun _ => ?_
  refine (static_call _ _).respects.bind fun _ => (unread_getChannel _).bind fun _ => ?_
  exact (unread_setChannel _ _).bind fun _ => unread_flushPending _

omit [CryptoLib] in
theorem unread_deliver (id : UInt32) (data : Bytes) : Unread r r' (deliver id data) :=
  (unread_getChannel id).bind fun _ => (static_call _ _).respects.bind fun _ =>
    (unread_setChannel _ _).bind fun _ => unread_pushEvent _

omit [CryptoLib] in
theorem static_beU32 (b : Bytes) : Static (beU32 b : ConnM UInt32) := by
  unfold beU32
  split
  · exact static_pure _
  · exact static_abort

omit [CryptoLib] in
theorem unread_onChannelData (payload : Bytes) : Unread r r' (onChannelData payload) := by
  refine (static_failIf _).respects.bind fun _ => (static_slice _ _ _).respects.bind fun _ => ?_
  refine (static_beU32 _).respects.bind fun _ => (static_slice _ _ _).respects.bind fun _ => ?_
  refine (static_beU32 _).respects.bind fun _ => (static_failIf _).respects.bind fun _ => ?_
  exact (static_slice _ _ _).respects.bind fun _ => unread_deliver _ _

omit [CryptoLib] in
theorem unread_onExtData (payload : Bytes) : Unread r r' (onExtData payload) := by
  refine (static_call _ _).respects.bind fun _ => (static_call _ _).respects.bind fun _ => ?_
  exact (static_call _ _).respects.bind fun _ => (static_call _ _).respects.bind fun _ =>
    unread_deliver _ _

omit [CryptoLib] in
theorem unread_onChannelEof (payload : Bytes) : Unread r r' (onChannelEof payload) := by
  refine (static_call _ _).respects.bind fun _ => (static_call _ _).respects.bind fun x => ?_
  refine unread_read (fun _ _ => rfl) fun k => ?_
  cases k.channels.get? x.1 with
  | none => exact (unread_pure ()).bind fun _ => unread_pushEvent _
  | some ch => exact (unread_setChannel _ _).bind fun _ => unread_pushEvent _

theorem unread_onChannelClose (payload : Bytes) : Unread r r' (onChannelClose payload) := by
  refine (static_call _ _).respects.bind fun _ => (static_call _ _).respects.bind fun x => ?_
  refine unread_read (fun _ _ => rfl) fun k => ?_
  cases k.channels.get? x.1 with
  | none => exact unread_pure ()
  | some ch =>
    refine (unread_setChannel _ _).bind fun _ => Respects.ite ?_ ?_
    · exact (unread_sendClose _).ignore.bind fun _ => unread_pushEvent _
    · exact (unread_emitCloseIfReady _).ignore.bind fun _ => unread_pushEvent _

theorem unread_onChannelRequest (payload : Bytes) : Unread r r' (onChannelRequest payload) := by
  refine (static_call _ _).respects.bind fun _ => (static_call _ _).respects.bind fun x => ?_
  refine (static_callOr _ _ _).respects.bind fun _ => (static_callOr _ _ _).respects.bind fun _ => ?_
  refine Respects.ite (unread_pure ()) (unread_read (fun _ _ => rfl) fun k => ?_)
  cases (k.channels.get? x.1).bind (·.remoteId) with
  | none => exact unread_pure ()
  | some id => exact unread_queueMsg _ _ _

theorem unread_onPing (payload : Bytes) : Unread r r' (onPing payload) :=
  (static_call _ _).respects.bind fun _ => (static_callOr _ _ _).respects.bind fun _ =>
    unread_queueMsg _ _ _

-- ============================================================================
-- Dispatch
-- ============================================================================

omit [CryptoLib] in
theorem unread_onDisconnect (payload : Bytes) : Unread r r' (onDisconnect payload) := by
  refine (static_call _ _).respects.bind fun _ => (static_callOr _ _ _).respects.bind fun _ => ?_
  refine (static_callOr _ _ _).respects.bind fun _ => ?_
  exact Respects.bind (Spares.respects fun _ _ => ⟨rfl, rfl, rfl⟩) fun _ => unread_pushEvent _

theorem unread_onUnknown : Unread r r' onUnknown :=
  unread_read (fun _ _ => rfl) fun _ => unread_queueMsg _ _ _

theorem unread_handlePayload (payload : Bytes) : Unread r r' (handlePayload payload) := by
  refine (static_index _ _).respects.bind fun t => ?_
  cases MsgType.ofCode t with
  | none => exact unread_onUnknown
  | some m =>
    cases m with
    | disconnect => exact unread_onDisconnect payload
    | kexinit => exact unread_onKexinit payload
    | kexEcdhInit => exact unread_onEcdhInit payload
    | kexEcdhReply => exact unread_onEcdhReply payload
    | newkeys => exact unread_onNewkeys
    | serviceRequest => exact unread_onServiceRequest payload
    | serviceAccept => exact unread_onServiceAccept
    | userauthRequest => exact unread_onUserauthRequest payload
    | userauthFailure => exact (static_throw _).respects
    | userauthSuccess => exact unread_onUserauthSuccess
    | globalRequest => exact unread_onGlobalRequest payload
    | channelOpen => exact unread_onChannelOpen payload
    | channelOpenConfirmation => exact unread_onOpenConfirm payload
    | channelOpenFailure => exact unread_onOpenFail payload
    | channelWindowAdjust => exact unread_onWindowAdjust payload
    | channelData => exact unread_onChannelData payload
    | channelExtendedData => exact unread_onExtData payload
    | channelEof => exact unread_onChannelEof payload
    | channelClose => exact unread_onChannelClose payload
    | channelRequest => exact unread_onChannelRequest payload
    | ping => exact unread_onPing payload
    | ignore | debug | unimplemented | extInfo | userauthBanner | requestSuccess | requestFailure
    | channelSuccess | channelFailure | pong => exact unread_pure ()

-- ============================================================================
-- Blind procedures
-- ============================================================================

theorem blind_maybeStartKex : Blind maybeStartKex := fun _ _ => unread_maybeStartKex

theorem blind_handlePayload (payload : Bytes) : Blind (handlePayload payload) := fun _ _ =>
  unread_handlePayload payload

end Ssproxy
