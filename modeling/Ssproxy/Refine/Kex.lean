/-
  Ssproxy.Refine.Kex

  The key-exchange functions against the moves.  The invariant `KexOk` rules
  out the branches that the moves do not have: completing an exchange from
  `send_newkeys`, NEWKEYS before our own, and keys that cannot be derived.
-/

import Ssproxy.Refine.Channels
import Ssproxy.Codec

namespace Ssproxy

open Lib Wire Connection Relation

variable [CryptoLib]

/-- The messages after which a connection may do more than handle them: those
    that let a channel go on or end it, and the NEWKEYS that ends an exchange. -/
inductive Trails (p : Bytes) (c : Connection) : Prop where
  | confirmed {id remote w m : UInt32} {ch : Channel}
      (hm : MsgType.channelOpenConfirmation.code ::
        (putU32 id ++ putU32 remote ++ putU32 w ++ putU32 m) <+: p)
      (hch : c.channels.get? id = some ch)
  | adjusted {id add : UInt32} {ch : Channel} (hm : Msg.windowAdjust id add <+: p)
      (hch : c.channels.get? id = some ch)
  | closed {id : UInt32} {ch : Channel} (hm : Msg.channelClose id <+: p)
      (hch : c.channels.get? id = some ch)
  | newkeys (hm : IsMsg .newkeys p) (hpk : c.pendingKeys.isSome = true)

/-- One packet was handled, with what followed.  After a WINDOW_ADJUST that is
    a flush. -/
inductive Handled (p : Bytes) (c c' : Conn) : Prop where
  | plain (h : Handles p c c')
  | trailing {c1 : Conn} (h : Handles p c c1) (ht : Trails p c.now) (hs : Settles c1 c')
      (hidle : IsMsg .channelWindowAdjust p →
        (∀ id ch, c1.now.channels.get? id = some ch → ¬Flushable c1.now ch) → c' = c1) :
      Handled p c c'

/-- The handling of a packet failed: nothing followed but draws, or the secret of
    the exchange is gone, or it was a KEXINIT for which an exchange was started. -/
inductive Failed (c : Conn) : Conn → Prop where
  | plain {p : Bytes} {c1 c' : Conn} (hr : Receives p c c1) (hd : Draws c1 c') : Failed c c'
  | spoiled {p : Bytes} {c1 : Conn} {k : KexState} (hr : Receives p c c1)
      (hm : ∃ ks qS sig, Msg.ecdhReply ks qS sig <+: p) (hrole : c1.now.role = .client)
      (hk : c1.now.kex = some k) (hsec : k.secret.isSome = true) (ks : Option Bytes) :
      Failed c ⟨{ c1.now with
        kex := c1.now.kex.map fun k => { k with secret := none }, peerKs := ks }, c1.log⟩
  | kexinit {p : Bytes} {c1 c' : Conn} {q : Parser} {theirs : KexInit} (hr : Receives p c c1)
      (hm : IsMsg .kexinit p) (hp : KexInit.parseBody p (.new p) = .ok theirs q)
      (hj : Joins c1 c') : Failed c c'

theorem Receives.failed {p : Bytes} {c c1 : Conn} (h : Receives p c c1) : Failed c c1 :=
  .plain h (.mk c1.now.rng)

theorem Receives.drawFailed {p : Bytes} {c c1 : Conn} (h : Receives p c c1) (r : Rng) :
    Failed c ⟨{ c1.now with rng := r }, c1.log⟩ :=
  .plain h (.mk r)

/-- The packet at the front of `read_buf` and what it leaves are determined. -/
theorem Receives.unique {p p' : Bytes} {c c1 c1' : Conn} (h : Receives p c c1)
    (h' : Receives p' c c1') : p' = p ∧ c1' = c1 := by
  cases h with
  | mk htake hpass =>
    cases h' with
    | mk htake' hpass' =>
      obtain ⟨hp, hc⟩ := Outcome.ok.inj (htake'.symm.trans htake)
      cases hp
      rw [Traced.mk.injEq] at hc
      rw [hc.1]
      exact ⟨rfl, rfl⟩

/-- A handler reads a field of the payload; if it cannot, it fails. -/
theorem Receives.parse {α β : Type} {p : Bytes} {c c1 : Conn} (hr : Receives p c c1)
    {m : Proc Parser Error α} {q : Parser} {R : α → Parser → Prop}
    (hm : (m q).Sat R (fun _ _ => True)) {f : α × Parser → ConnM β} {Q : β → Conn → Prop}
    (hf : ∀ a q', R a q' → (f (a, q') c1).Sat Q (fun _ c' => Failed c c')) :
    ((Proc.call m q >>= f) c1).Sat Q (fun _ c' => Failed c c') := by
  refine ((Proc.sat_call hm).mono (fun _ _ h => h) fun _ _ h => h ▸ hr.failed).bind ?_
  rintro ⟨a, q'⟩ _ ⟨rfl, h⟩
  exact hf a q' h

/-- A handler checks a condition; if it does not hold, it fails. -/
theorem Receives.check {β : Type} {p : Bytes} {c c1 : Conn} (hr : Receives p c c1)
    {b : Prop} [Decidable b] {e : Error} {f : Unit → ConnM β} {Q : β → Conn → Prop}
    (hf : ¬b → (f () c1).Sat Q (fun _ c' => Failed c c')) :
    ((Proc.failIf b e >>= f) c1).Sat Q (fun _ c' => Failed c c') := by
  rw [Proc.bind_apply, Proc.failIf_apply]
  split
  · exact hr.failed
  · rename_i hb
    exact hf hb

theorem Joins.role {c c' : Conn} (h : Joins c c') : c'.now.role = c.now.role := by
  cases h with
  | running hk => rfl
  | started hk hs =>
    cases hs with
    | mk hq => exact congrArg (·.conn.role) hq.control

namespace Connection

variable {p : Bytes} {c c' c1 : Conn}

omit [CryptoLib] in
theorem role_of_not_client (h : ¬c.now.role = .client) : c.now.role = .server := by
  cases hr : c.now.role with
  | server => rfl
  | client => exact absurd hr h

omit [CryptoLib] in
theorem role_of_not_server (h : ¬c.now.role = .server) : c.now.role = .client := by
  cases hr : c.now.role with
  | server => exact absurd hr h
  | client => rfl

-- ============================================================================
-- Starting an exchange
-- ============================================================================

omit [CryptoLib] in
theorem length_ownKexInit (c : Connection) : c.ownKexInit.raw.length ≤ 2 ^ 20 := by
  have hs : (putNamelist serverKex).length ≤ 100 := by decide +kernel
  have hc : (putNamelist clientKex).length ≤ 100 := by decide +kernel
  have hh : (putNamelist serverHostKey).length ≤ 100 := by decide +kernel
  have he : (putNamelist serverCiphers).length ≤ 100 := by decide +kernel
  have hm : (putNamelist serverMacs).length ≤ 100 := by decide +kernel
  have ho : (putNamelist serverComp).length ≤ 100 := by decide +kernel
  have hn : (putNamelist []).length ≤ 100 := by decide +kernel
  have hk : (putNamelist c.kexNames).length ≤ 100 := by
    unfold kexNames
    cases c.role with
    | server => exact hs
    | client => exact hc
  simp only [ownKexInit, KexInit.build, List.length_cons, List.length_append, Block.length_val,
    length_putU32, putBool, List.length_nil]
  omega

theorem clientEphemeral_apply (c : Conn) :
    clientEphemeral c = .ok (c.now.ephemeral, c.now.ephemeral.map CryptoLib.x25519Base)
      ⟨{ c.now with
        rng := if c.now.role = .client then c.now.rng.skip 32 else c.now.rng }, c.log⟩ := by
  unfold clientEphemeral
  rw [Proc.bind_of_ok (Traced.read_apply c), Proc.ite_apply]
  split
  · rename_i hr
    simp [ephemeral, hr]
  · rename_i hr
    have hr : c.now.role = .server := by
      cases h : c.now.role with
      | server => rfl
      | client => exact absurd h hr
    have he : c.now.ephemeral = none := by simp [ephemeral, hr]
    rw [he]
    rfl

theorem startKex_sat (c : Conn) :
    (startKex c).Sat (fun _ c' => Starts c c') (fun _ _ => False) := by
  have hq := queueMsg_short none c.now.ownKexInit.raw
    ⟨{ c.now with rng := c.now.rng.skip 16 }, c.log⟩ (by simp [ownKexInit, KexInit.build])
    (length_ownKexInit c.now)
  unfold startKex
  rw [Proc.bind_of_ok (Traced.read_apply c), Proc.bind_of_ok (fillBytes_apply 16 c)]
  refine hq.bind fun _ c1 hq => ?_
  rw [Proc.bind_of_ok (Traced.update_apply _ c1), Proc.bind_of_ok (clientEphemeral_apply _)]
  exact Starts.mk hq

theorem maybeStartKex_follows (c : Conn) (hwf : WellFormed c) :
    Proc.Follows Steps maybeStartKex c := by
  unfold maybeStartKex Proc.Follows
  rw [Proc.bind_of_ok (Traced.read_apply c), Proc.ite_apply]
  split
  · exact .refl
  · rename_i hsent
    have hsent := eq_false_of_ne_true hsent
    have hnone : c.now.kex = none := by
      have h : c.now.sentKexinit = c.now.kex.isSome := hwf.kex.kexinit
      rw [hsent] at h
      exact Option.isSome_eq_false_iff.mp h.symm |> Option.isNone_iff_eq_none.mp
    refine Proc.sat_ignore ((startKex_sat c).mono ?_ fun _ _ h => h.elim)
    exact fun _ c' hs => .single (Step.startKex hnone hsent hs)

theorem maybeRekey_follows (c : Conn) : Proc.Follows Steps maybeRekey c := by
  unfold maybeRekey Proc.Follows
  rw [Proc.bind_of_ok (Traced.read_apply c), Proc.ite_apply]
  split
  · exact .refl
  rw [Proc.ite_apply]
  split
  · exact .refl
  rename_i hidle
  simp only [Bool.or_eq_true, not_or, Bool.not_eq_true, Option.isSome_eq_false_iff,
    Option.isNone_iff_eq_none] at hidle
  rw [Proc.ite_apply]
  split
  · exact .refl
  rw [Proc.ite_apply]
  split
  · refine Proc.sat_ignore ((startKex_sat c).mono ?_ fun _ _ h => h.elim)
    exact fun _ c' hs => .single (Step.startKex hidle.1.1 hidle.2 hs)
  · exact .refl

-- ============================================================================
-- Output
-- ============================================================================

theorem peekOut_follows (c : Conn) : Proc.Follows Steps peekOut c := .single (Step.pull c)

/-- What `consume_out` does once the current packet is `b`: whichever way the
    bytes are taken, the hook of the ident line follows. -/
theorem consumeOut_apply {n : Nat} {b : Bytes} (hn : n ≠ 0)
    (hout : c.now.pullCurrentOut.currentOut = some b) :
    consumeOut n c = (if (c.now.pullCurrentOut.drained b (min n b.length)).currentOut.isNone
        && c.now.pullCurrentOut.currentIsIdent then maybeStartKex else pure () : ConnM Unit)
      ⟨c.now.pullCurrentOut.drained b (min n b.length), c.log⟩ := by
  have hle : min n b.length ≤ b.length := Nat.min_le_right _ _
  unfold consumeOut drained
  rw [Proc.ite_apply, if_neg hn, Proc.bind_of_ok (Traced.update_apply _ c),
    Proc.bind_of_ok (Traced.read_apply _)]
  dsimp only
  rw [hout]
  dsimp only
  rw [Proc.ite_apply]
  split
  · rw [Proc.bind_of_ok (Traced.update_apply _ _), Proc.ite_apply]
    split
    · rw [Proc.bind_of_ok (Traced.update_apply _ _), Proc.bind_of_ok (Traced.read_apply _)]
    · rw [Proc.bind_of_ok (Traced.read_apply _)]
  · rw [Proc.bind_of_ok (Proc.splitAt_of_le hle _), Proc.bind_of_ok (Traced.update_apply _ _),
      Proc.ite_apply]
    split
    · rw [Proc.bind_of_ok (Traced.update_apply _ _), Proc.bind_of_ok (Traced.read_apply _)]
    · rw [Proc.bind_of_ok (Traced.read_apply _)]

theorem consumeOut_empty {n : Nat} (hn : n ≠ 0) (hout : c.now.pullCurrentOut.currentOut = none) :
    consumeOut n c = .ok () ⟨c.now.pullCurrentOut, c.log⟩ := by
  unfold consumeOut
  rw [Proc.ite_apply, if_neg hn, Proc.bind_of_ok (Traced.update_apply _ c),
    Proc.bind_of_ok (Traced.read_apply _)]
  dsimp only
  rw [hout]
  rfl

theorem consumeOut_follows (n : Nat) (c : Conn) (hwf : WellFormed c) :
    Proc.Follows (Called (.consumeOut n)) (consumeOut n) c := by
  unfold Proc.Follows
  by_cases hn : n = 0
  · rw [hn]
    exact .other .refl
  cases hout : c.now.pullCurrentOut.currentOut with
  | none =>
    rw [consumeOut_empty hn hout]
    exact .other (.single (Step.pull c))
  | some b =>
    have hdrain := Step.drain hout hn
    rw [consumeOut_apply hn hout, Proc.ite_apply]
    split
    · exact called_after hdrain (maybeStartKex_follows _ (hdrain.wellFormed hwf))
    · exact hdrain.called

-- ============================================================================
-- Keys
-- ============================================================================

theorem finishKex_apply {x : Exchange} {ks : Bytes} (qC qS shared : Block 32)
    (hx : c.now.InExchange x) (hks : c.now.peerKs = some ks) :
    finishKex qC qS shared c = .ok () ⟨c.now.finished x ks qC qS shared, c.log⟩ := by
  have hsid : ∀ h : Bytes, c.now.sessionId.or (some h) = some (c.now.sessionId.getD h) := by
    intro h
    cases c.now.sessionId <;> rfl
  unfold finishKex
  rw [Proc.bind_of_ok (Traced.read_apply c)]
  simp only [hx.kex, hx.theirs, hx.identPeer, hks, hx.c2s, hx.s2c, Proc.okOr_some,
    Proc.unwrap_some, Proc.bind_apply, Outcome.bind_ok, Traced.update_apply, Traced.read_apply,
    hsid]
  cases hr : c.now.role with
  | server =>
    simp only [if_true, (makeKeys_apply _ _ _ _ _ _).2, Proc.bind_apply,
      Outcome.bind_ok, Traced.update_apply]
    simp only [finished, exchangeHash, exchangeKeys, hr, hx.kex, hx.identPeer, hks]
  | client =>
    simp only [reduceCtorEq, if_false, (makeKeys_apply _ _ _ _ _ _).2, Proc.bind_apply,
      Outcome.bind_ok, Traced.update_apply]
    simp only [finished, exchangeHash, exchangeKeys, hr, hx.kex, hx.identPeer, hks]

/-- Without the peer's KEXINIT `finish_kex` stops at once. -/
theorem finishKex_early {k : KexState} (qC qS shared : Block 32) (hk : c.now.kex = some k)
    (ht : k.theirs = none) :
    finishKex qC qS shared c = .err (.protocol "no peer kexinit") c := by
  unfold finishKex
  rw [Proc.bind_of_ok (Traced.read_apply c), Proc.bind_of_ok (okOr_of_eq hk _ c), Proc.bind_apply,
    ht, Proc.okOr_none, Outcome.bind_err]

omit [CryptoLib] in
theorem switchSend_eq {c : Connection} {pk : PendingKeys} (hpk : c.pendingKeys = some pk) :
    c.switchSend = c.installSend pk := by
  unfold switchSend installSend
  rw [hpk]
  dsimp only
  split <;> rfl

omit [CryptoLib] in
theorem switchRecv_eq {c : Connection} (pk : PendingKeys) (hs : c.sentNewkeys = true) :
    c.switchRecv pk = c.installRecv pk := by
  unfold switchRecv installRecv
  rw [if_pos hs]

/-- Our NEWKEYS does not complete the exchange: the peer's has not come yet. -/
theorem sendNewkeys_sat {pk : PendingKeys} (hpk : c.now.pendingKeys = some pk)
    (hrecv : c.now.recvNewkeys = false) :
    (sendNewkeys c).Sat (fun _ c' => Switches pk c c') (fun _ _ => False) := by
  unfold sendNewkeys
  refine (queueMsg_short none Msg.newkeys c (by simp [Msg.newkeys])
    (by simp [Msg.newkeys])).bind fun _ c1 hq => ?_
  have hpk1 : c1.now.pendingKeys = some pk :=
    (congrArg (·.conn.pendingKeys) hq.control).trans hpk
  have hrecv1 : (c1.now.installSend pk).recvNewkeys = false :=
    (congrArg (·.conn.recvNewkeys) hq.control).trans hrecv
  rw [Proc.bind_of_ok (Traced.update_apply _ c1), switchSend_eq hpk1]
  unfold tryCompleteKex
  rw [Proc.bind_of_ok (Traced.read_apply _), Proc.ite_apply, if_pos (by simp [hrecv1])]
  exact Switches.mk hpk hq

theorem flushPostRekey_returns (c : Conn) :
    Proc.Returns (Replays c.now.channels.iterIds) flushPostRekey c := by
  unfold flushPostRekey Proc.Returns
  rw [Proc.bind_of_ok (Traced.read_apply c)]
  generalize c.now.channels.iterIds = ids
  induction ids generalizing c with
  | nil => exact .done c
  | cons id ids ih =>
    refine Outcome.Sat.bind (R := fun _ c1 => ∃ c0, Adjusts id c c0 ∧ StepsAt id c0 c1) ?_ ?_
    · refine Outcome.Sat.bind (maybeAdjust_returns id c) fun _ c1 ha => ?_
      refine Outcome.Sat.mono (Q := fun _ c2 => StepsAt id c1 c2) (E := fun _ _ => False) ?_
        (fun _ _ hs => ⟨c1, ha, hs⟩) fun _ _ h => h
      refine Proc.Returns.bind stepsAt_trans (flushPending_returns id c1) fun _ c2 _ => ?_
      refine Proc.Returns.bind stepsAt_trans (emitEofIfReady_follows id c2).ignore fun _ c3 _ => ?_
      exact (emitCloseIfReady_follows id c3).ignore
    · rintro _ c2 ⟨c1, ha, hs⟩
      exact (ih c2).mono (fun _ _ ht => .next ha hs ht) fun _ _ h => h

-- ============================================================================
-- The messages of an exchange
-- ============================================================================

/-- The NEWKEYS that ends the first exchange. -/
theorem onNewkeys_first {pk : PendingKeys} (hpk : c1.now.pendingKeys = some pk)
    (hsent : c1.now.sentNewkeys = true) (hf : c1.now.firstKexDone = false) :
    (onNewkeys c1).Sat (fun _ c' => Greets
      ⟨{ (c1.now.installRecv pk).completed with firstKexDone := true },
        c1.log ++ [.kexCompleted (c1.now.installRecv pk)]⟩ c') (fun _ _ => False) := by
  unfold onNewkeys
  rw [Proc.bind_of_ok (Traced.read_apply c1), hpk]
  dsimp only
  rw [Proc.bind_of_ok (Traced.update_apply _ c1), switchRecv_eq pk hsent]
  unfold tryCompleteKex
  rw [Proc.bind_of_ok (Traced.read_apply _), Proc.ite_apply,
    if_neg (by simp [installRecv, hsent]), Proc.bind_of_ok (Traced.update_apply _ _),
    Proc.bind_of_ok (Traced.observe_apply _ _), Proc.ite_apply, if_pos (by simp [installRecv, hf]),
    Proc.bind_of_ok (Traced.update_apply _ _)]
  rw [Proc.ite_apply]
  split
  · rename_i hrole
    -- the two role facts are read off the state before the completion, hence `by exact`
    refine Outcome.Sat.bind (Outcome.Sat.mono (queueMsg_short none Msg.extInfo _
      (by simp [Msg.extInfo]) (by decide +kernel))
        (fun _ _ hq => Greets.extInfo (by exact hrole.1) (by exact hrole.2) hq)
        fun _ _ h => h.elim) ?_
    intro _ c2 h2
    dsimp only
    rw [Proc.ite_apply, if_neg]
    · exact h2
    · intro hc
      exact absurd (hrole.1.symm.trans hc) (by decide)
  · rename_i hrole
    dsimp only
    rw [Proc.ite_apply]
    split
    · rename_i hc
      exact Outcome.Sat.mono (queueMsg_short none Msg.serviceRequest _
        (by simp [Msg.serviceRequest]) (by decide +kernel))
        (fun _ c' hq => .service hc hq) fun _ _ h => h.elim
    · rename_i hc
      have hserver : c1.now.role = .server := role_of_not_client hc
      refine Greets.silent hserver ?_
      exact eq_false_of_ne_true fun he => hrole ⟨hserver, he⟩

/-- The NEWKEYS that ends a later exchange: the gate opens, and what it held back
    is replayed. -/
theorem onNewkeys_again {pk : PendingKeys} (hpk : c1.now.pendingKeys = some pk)
    (hsent : c1.now.sentNewkeys = true) (hf : c1.now.firstKexDone = true) :
    onNewkeys c1 = (do
      flushPostRekey
      Traced.update fun c => { c with bytesIo := 0, packetsIo := 0 } : ConnM Unit)
        ⟨{ (c1.now.installRecv pk).completed with kexBlocksApp := false },
          c1.log ++ [.kexCompleted (c1.now.installRecv pk)]⟩ := by
  unfold onNewkeys
  rw [Proc.bind_of_ok (Traced.read_apply c1), hpk]
  dsimp only
  rw [Proc.bind_of_ok (Traced.update_apply _ c1), switchRecv_eq pk hsent]
  unfold tryCompleteKex
  rw [Proc.bind_of_ok (Traced.read_apply _), Proc.ite_apply,
    if_neg (by simp [installRecv, hsent]), Proc.bind_of_ok (Traced.update_apply _ _),
    Proc.bind_of_ok (Traced.observe_apply _ _), Proc.ite_apply, if_neg (by simp [installRecv, hf]),
    Proc.bind_of_ok (Traced.update_apply _ _)]
  rfl

theorem onNewkeys_none (h : c1.now.pendingKeys = none) :
    onNewkeys c1 = .err (.protocol "newkeys without pending") c1 := by
  unfold onNewkeys
  rw [Proc.bind_of_ok (Traced.read_apply c1), h]
  rfl

theorem onNewkeys_sat (hr : Receives p c c1) (hm : IsMsg .newkeys p) (hwf : WellFormed c1) :
    (onNewkeys c1).Sat (fun _ c' => Handled p c c') (fun _ c' => Failed c c') := by
  cases hpk : c1.now.pendingKeys with
  | none =>
    rw [onNewkeys_none hpk]
    exact hr.failed
  | some pk =>
    have hsent : c1.now.sentNewkeys = true := (hwf.kex.pending pk hpk).2.1
    cases hf : c1.now.firstKexDone with
    | false =>
      exact (onNewkeys_first hpk hsent hf).mono
        (fun _ c' hg => .plain (Handles.newkeysFirst hr hm hpk hf hg)) fun _ _ h => h.elim
    | true =>
      have hh := Handles.newkeysAgain hr hm hpk hf
      rw [onNewkeys_again hpk hsent hf]
      refine Outcome.Sat.bind (Outcome.Sat.mono (flushPostRekey_returns _) (fun _ _ h => h)
        fun _ _ h => h.elim) ?_
      intro _ c2 hreplay
      have htrails : Trails p c.now := by
        have hpend : c1.now.pendingKeys = c.now.pendingKeys :=
          congrArg (·.conn.pendingKeys) hr.control
        exact .newkeys hm (by rw [← hpend, hpk]; rfl)
      exact .trailing hh htrails (.replay rfl hf rfl hreplay (.single (Step.tick c2)))
        fun h => absurd (hm.unique h) (by decide)

theorem joinKex_sat (c : Conn) :
    (joinKex c).Sat (fun _ c' => Joins c c' ∧ ∃ k, c'.now.kex = some k) (fun _ _ => False) := by
  unfold joinKex
  rw [Proc.bind_of_ok (Traced.read_apply c), Proc.ite_apply]
  split
  · rename_i hnone
    refine (startKex_sat c).mono ?_ fun _ _ h => h
    intro _ c' hs
    refine ⟨.started (Option.isNone_iff_eq_none.mp hnone) hs, ?_⟩
    cases hs
    exact ⟨_, rfl⟩
  · rename_i hsome
    obtain ⟨k, hk⟩ := Option.ne_none_iff_exists'.mp (mt Option.isNone_iff_eq_none.mpr hsome)
    exact ⟨.running hk, k, hk⟩

theorem joins_steps (h : Joins c c') (hwf : WellFormed c) : Steps c c' := by
  cases h with
  | running hk => exact .refl
  | started hk hs =>
    have hsent : c.now.sentKexinit = false := by
      rw [show c.now.sentKexinit = c.now.kex.isSome from hwf.kex.kexinit, hk]
      rfl
    exact .single (Step.startKex hk hsent hs)

theorem sendEcdhInit_sat {pub : Block 32} (hpub : c.now.kex.bind (·.localPub) = some pub) :
    (sendEcdhInit c).Sat (fun _ c' => Queues none (Msg.ecdhInit pub) c c') (fun _ _ => False) := by
  unfold sendEcdhInit
  rw [Proc.bind_of_ok (Traced.read_apply c), Proc.bind_of_ok (okOr_of_eq hpub _ c)]
  exact queueMsg_short _ _ c (by simp) (by simp)

/-- The connection after `accept_kexinit`: the choice is recorded, and a client
    goes on with its ephemeral key. -/
inductive Accepts (k : KexState) (theirs : KexInit) (c : Conn) : Conn → Prop where
  | server {c2s s2c : String} (hrole : c.now.role = .server) (hn : Negotiates theirs c2s s2c) :
      Accepts k theirs c ⟨c.now.recorded k theirs c2s s2c, c.log⟩
  | client {c2s s2c : String} {pub : Block 32} {c' : Conn} (hrole : c.now.role = .client)
      (hn : Negotiates theirs c2s s2c) (hpub : k.localPub = some pub)
      (hq : Queues none (Msg.ecdhInit pub) ⟨c.now.recorded k theirs c2s s2c, c.log⟩ c') :
      Accepts k theirs c c'

theorem acceptKexinit_sat {k : KexState} (theirs : KexInit) (hk : c.now.kex = some k)
    (hwf : WellFormed c) :
    (acceptKexinit theirs c).Sat (fun _ c' => Accepts k theirs c c') (fun _ c' => c' = c) := by
  unfold acceptKexinit
  rw [Proc.bind_of_ok (Traced.read_apply c), Proc.bind_of_ok (unwrap_of_eq hk c)]
  cases hc2s : negotiate serverCiphers theirs.encC2s false with
  | none => rfl
  | some c2s =>
  rw [Proc.bind_of_ok (Proc.okOr_some _ _ c)]
  cases hs2c : negotiate serverCiphers theirs.encS2c false with
  | none => rfl
  | some s2c =>
  rw [Proc.bind_of_ok (Proc.okOr_some _ _ c)]
  cases hhost : negotiate serverHostKey theirs.hostKey false with
  | none => rfl
  | some host =>
  rw [Proc.bind_of_ok (Proc.okOr_some _ _ c), Proc.bind_apply, Proc.failIf_apply]
  split
  · rfl
  rename_i hed
  dsimp only [Outcome.bind_ok]
  cases hkex : negotiate ["curve25519-sha256", "curve25519-sha256@libssh.org"] theirs.kex true with
  | none => rfl
  | some alg =>
  rw [Proc.bind_of_ok (Proc.okOr_some _ _ c)]
  cases hcomp : negotiate serverComp theirs.compC2s false with
  | none => rfl
  | some comp =>
  have hn : Negotiates theirs c2s s2c :=
    ⟨hc2s, hs2c, by rw [hhost, not_not.mp hed], by rw [hkex]; rfl, by rw [hcomp]; rfl⟩
  rw [Proc.bind_of_ok (Proc.okOr_some _ _ c), Proc.bind_of_ok (Traced.update_apply _ c),
    Proc.bind_of_ok (Traced.update_apply _ _), Proc.ite_apply]
  split
  · rename_i hclient
    obtain ⟨pub, hpub⟩ := hwf.kex.ephemeral hclient k hk
    exact (sendEcdhInit_sat (c := ⟨c.now.recorded k theirs c2s s2c, c.log⟩) hpub).mono
      (fun _ _ hq => .client hclient hn hpub hq) fun _ _ h => h.elim
  · rename_i hserver
    exact .server (role_of_not_client hserver) hn

theorem onKexinit_sat (hr : Receives p c c1) (hm : IsMsg .kexinit p) (hwf : WellFormed c1) :
    (onKexinit p c1).Sat (fun _ c' => Handled p c c') (fun _ c' => Failed c c') := by
  unfold onKexinit
  refine ((KexInit.parse_sat p c1).mono (fun _ _ h => h) fun _ _ h => h ▸ hr.failed).bind ?_
  rintro theirs _ ⟨rfl, q, hp⟩
  refine ((joinKex_sat _).mono (fun _ _ h => h) fun _ _ h => h.elim).bind ?_
  rintro _ c2 ⟨hj, k, hk⟩
  have hrole : c2.now.role = c1.now.role := hj.role
  refine (acceptKexinit_sat theirs hk (hj.wellFormed hwf)).mono ?_ ?_
  · intro _ c' ha
    cases ha with
    | server hserver hn =>
      exact .plain (Handles.kexinitServer hr hm (hrole.symm.trans hserver) hp hj hk hn)
    | client hclient hn hpub hq =>
      exact .plain (Handles.kexinitClient hr hm (hrole.symm.trans hclient) hp hj hk hn hpub hq)
  · rintro _ c' rfl
    exact .kexinit hr hm hp hj

omit [CryptoLib] in
/-- With the peer's KEXINIT recorded, all that `finish_kex` needs is there. -/
theorem inExchange_of_theirs (hwf : WellFormed c) (hid : c.now.identInDone = true) {k : KexState}
    {theirs : KexInit} (hk : c.now.kex = some k) (ht : k.theirs = some theirs) :
    ∃ x : Exchange, c.now.InExchange x ∧ x.kex = k := by
  obtain ⟨v, hv⟩ := Option.isSome_iff_exists.mp (hwf.kex.identPeer hid)
  obtain ⟨⟨c2s, hc2s, -⟩, s2c, hs2c, -⟩ := hwf.kex.negotiated k hk (by rw [ht]; rfl)
  exact ⟨⟨k, theirs, v, c2s, s2c⟩, ⟨hk, ht, hv, hc2s, hs2c⟩, rfl⟩

theorem length_ecdhReply (k : HostKey) (q : Block 32) (h : Bytes) :
    (Msg.ecdhReply k.publicBlob q (k.sign h)).length ≤ 2 ^ 20 := by
  have hname : (putStr "ssh-ed25519").length = 15 := by decide +kernel
  simp only [Msg.ecdhReply, HostKey.publicBlob, HostKey.sign, List.length_cons, List.length_append,
    length_putBytes, Block.length_val, hname]
  omega

theorem onEcdhInit_sat (hr : Receives p c c1) (hwf : WellFormed c1)
    (hid : c1.now.identInDone = true) :
    (onEcdhInit p c1).Sat (fun _ c' => Handled p c c') (fun _ c' => Failed c c') := by
  unfold onEcdhInit
  rw [Proc.bind_of_ok (Traced.read_apply c1)]
  refine hr.check fun hrole => ?_
  have hrole : c1.now.role = .server := not_not.mp hrole
  refine hr.parse (Parser.u8_sat _) fun t p1 h1 => ?_
  refine hr.check fun hmsg => ?_
  refine hr.parse (Parser.bytes_sat _) fun b p2 ⟨hb, h2⟩ => ?_
  refine hr.check fun hlen => ?_
  have hlen : b.length = 32 := not_not.mp hlen
  rw [Block.ofBytes?_of_length hlen, Proc.bind_of_ok (Proc.unwrap_some _ _),
    Proc.bind_of_ok (fillBytes_apply 32 _), Proc.bind_apply, Proc.failIf_apply]
  split
  · exact hr.drawFailed _
  rename_i hzero
  have hzero := eq_false_of_ne_true hzero
  rw [Outcome.bind_ok, Proc.bind_apply, Proc.failIf_apply]
  split
  · exact hr.drawFailed _
  rename_i htheirs
  obtain ⟨k, hk, theirs, ht⟩ : ∃ k, c1.now.kex = some k ∧ ∃ theirs, k.theirs = some theirs := by
    cases hk : c1.now.kex with
    | none => exact absurd (by rw [hk]; rfl) htheirs
    | some k =>
      refine ⟨k, rfl, Option.isSome_iff_exists.mp ?_⟩
      rw [hk] at htheirs
      simpa [Option.isSome_iff_ne_none] using htheirs
  obtain ⟨x, hx, -⟩ := inExchange_of_theirs hwf hid hk ht
  obtain ⟨cfg, hcfg⟩ := Option.isSome_iff_exists.mp (hwf.kex.server hrole)
  have hcfg : c1.now.server = some cfg := hcfg
  have hm : Msg.ecdhInit ⟨b, hlen⟩ <+: p := by
    refine ⟨p2.rest, ?_⟩
    rw [Parser.rest_new] at h1
    rw [h1, h2, not_not.mp hmsg]
    rfl
  rw [Outcome.bind_ok, Proc.bind_of_ok (unwrap_of_eq hcfg _),
    Proc.bind_of_ok (Traced.update_apply _ _)]
  generalize hc2 : (⟨({ c1.now with
    rng := c1.now.rng.skip 32, peerKs := some cfg.hostKey.publicBlob } : Connection), c1.log⟩ :
      Conn) = c2
  have hx2 : c2.now.InExchange x := by
    rw [← hc2]
    exact ⟨hx.kex, hx.theirs, hx.identPeer, hx.c2s, hx.s2c⟩
  have hks2 : c2.now.peerKs = some cfg.hostKey.publicBlob := by
    rw [← hc2]
  have hrecv2 : c2.now.recvNewkeys = false := by
    rw [← hc2]
    exact hwf.kex.unfinished (Option.isSome_iff_exists.mpr ⟨k, hk⟩)
  have hlast : ∀ qC qS shared, (c2.now.finished x cfg.hostKey.publicBlob qC qS shared).lastH
      = some (c2.now.exchangeHash x cfg.hostKey.publicBlob qC qS shared) := fun _ _ _ => rfl
  rw [Proc.bind_of_ok (finishKex_apply _ _ _ hx2 hks2), Proc.bind_of_ok (Traced.read_apply _),
    Proc.bind_of_ok (unwrap_of_eq (hlast _ _ _) _)]
  refine ((queueMsg_short none _ _ (by simp [Msg.ecdhReply]) (length_ecdhReply cfg.hostKey _ _)).mono
    (fun _ _ h => h) fun _ _ h => h.elim).bind fun _ c3 hq => ?_
  have hpk3 : c3.now.pendingKeys = _ := congrArg (·.conn.pendingKeys) hq.control
  have hrecv3 : c3.now.recvNewkeys = false :=
    (congrArg (·.conn.recvNewkeys) hq.control).trans hrecv2
  refine (sendNewkeys_sat hpk3 hrecv3).mono ?_ fun _ _ h => h.elim
  intro _ c4 hs
  subst hc2
  exact .plain (Handles.ecdhInit hr hrole hm hcfg hx hzero hq hs)

theorem onEcdhReply_sat (hr : Receives p c c1) (hwf : WellFormed c1)
    (hid : c1.now.identInDone = true) :
    (onEcdhReply p c1).Sat (fun _ c' => Handled p c c') (fun _ c' => Failed c c') := by
  unfold onEcdhReply
  rw [Proc.bind_of_ok (Traced.read_apply c1)]
  refine hr.check fun hrole => ?_
  have hrole : c1.now.role = .client := not_not.mp hrole
  refine hr.parse (Parser.u8_sat _) fun t p1 h1 => ?_
  refine hr.check fun hmsg => ?_
  refine hr.parse (Parser.bytes_sat _) fun ks p2 ⟨hks, h2⟩ => ?_
  refine hr.parse (Parser.bytes_sat _) fun b p3 ⟨hb, h3⟩ => ?_
  refine hr.parse (Parser.bytes_sat _) fun sig p4 ⟨hsig, h4⟩ => ?_
  refine hr.check fun hlen => ?_
  have hlen : b.length = 32 := not_not.mp hlen
  rw [Block.ofBytes?_of_length hlen, Proc.bind_of_ok (Proc.unwrap_some _ _)]
  cases hk : c1.now.kex with
  | none => exact hr.failed
  | some k =>
  cases hpub : k.localPub with
  | none =>
    rw [show (some k).bind (·.localPub) = none from hpub]
    exact hr.failed
  | some pub =>
  rw [show (some k).bind (·.localPub) = some pub from hpub, Proc.bind_of_ok (Proc.okOr_some _ _ _)]
  cases hsec : k.secret with
  | none =>
    rw [show (some k).bind (·.secret) = none from hsec]
    exact hr.failed
  | some secret =>
  rw [show (some k).bind (·.secret) = some secret from hsec,
    Proc.bind_of_ok (Proc.okOr_some _ _ _), Proc.bind_of_ok (Traced.update_apply _ _),
    Proc.bind_apply, Proc.failIf_apply]
  have hmsg : Msg.ecdhReply ks ⟨b, hlen⟩ sig <+: p := by
    refine ⟨p4.rest, ?_⟩
    rw [Parser.rest_new] at h1
    rw [h1, h2, h3, h4, not_not.mp hmsg]
    simp [Msg.ecdhReply]
  split
  · exact .spoiled hr ⟨_, _, _, hmsg⟩ hrole hk (by rw [hsec]; rfl) _
  rename_i hzero
  have hzero := eq_false_of_ne_true hzero
  rw [Outcome.bind_ok, Proc.bind_of_ok (Traced.update_apply _ _)]
  cases ht : k.theirs with
  | none =>
    rw [Proc.bind_apply, finishKex_early _ _ _ (k := { k with secret := none }) (by rw [hk]; rfl) ht]
    exact .spoiled hr ⟨_, _, _, hmsg⟩ hrole hk (by rw [hsec]; rfl) _
  | some theirs =>
  obtain ⟨x, hx, rfl⟩ := inExchange_of_theirs hwf hid hk ht
  generalize hc2 : (⟨({ c1.now with
    kex := c1.now.kex.map fun k => { k with secret := none }
    peerKs := some ks } : Connection), c1.log⟩ : Conn) = c2
  have hx2 : c2.now.InExchange { x with kex := { x.kex with secret := none } } := by
    rw [← hc2]
    exact ⟨by rw [hx.kex]; rfl, hx.theirs, hx.identPeer, hx.c2s, hx.s2c⟩
  have hks2 : c2.now.peerKs = some ks := by
    rw [← hc2]
  rw [Proc.bind_of_ok (finishKex_apply _ _ _ hx2 hks2)]
  have hrecv : c1.now.recvNewkeys = false :=
    hwf.kex.unfinished (Option.isSome_iff_exists.mpr ⟨_, hk⟩)
  subst hc2
  refine Outcome.Sat.mono (sendNewkeys_sat (c := ⟨Connection.finished _ _ _ _ _ _, _⟩) rfl hrecv) ?_
    fun _ _ h => h.elim
  intro _ c4 hs
  rw [hk] at hs
  exact .plain (Handles.ecdhReply hr hrole hmsg hpub hsec hx hks hsig hzero hs)

end Connection

end Ssproxy
