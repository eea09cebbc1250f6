/-
  Ssproxy.Inflow

  Data on its way into a channel: what is buffered in `in_q`, the credit that
  the peer has, and when more is granted.
-/

import Mathlib.Algebra.BigOperators.Group.List.Basic
import Ssproxy.Lives
import Ssproxy.Stall

namespace Ssproxy

open Lib Wire Connection Relation

variable {id : UInt32} {x : Connection} {k : Cause} {ch ch' : Channel} {new : List Obs}
  {c c' : Conn}

-- ============================================================================
-- The buffer and its bound
-- ============================================================================

/-- The counter of `in_q` is exact, and what is buffered was paid for: with the
    credit that the peer still has it stays within the maximum. -/
structure InOk (ch : Channel) : Prop where
  exact : ch.inQBytes = (ch.inQ.map List.length).sum
  bound : ch.recvWindow.toNat + ch.inQBytes ≤ ch.recvMax.toNat

/-- How much credit the peer lacks. -/
def Channel.deficit (ch : Channel) : Nat := ch.recvMax.toNat - (ch.recvWindow.toNat + ch.inQBytes)

/-- The peer lacks no credit, or less than an eighth of the maximum. -/
def Trim (ch : Channel) : Prop := ch.deficit = 0 ∨ ch.deficit < ch.recvMax.toNat / 8

/-- A handled packet fits into the packet buffer. -/
def Obs.Short : Obs → Prop
  | handled _ p => p.length ≤ Ssproxy.maxPacket
  | _ => True

theorem Fresh.inOk (h : Fresh id x k ch new) : InOk ch := by
  cases h with
  | peer hm hev => exact ⟨rfl, Nat.le_refl _⟩
  | here hrole hnew => exact ⟨rfl, Nat.le_refl _⟩

/-- With an exact counter, what is granted is the deficit. -/
theorem windowAdjustAmount_eq (h : InOk ch) : ∃ add : UInt32,
    (∀ {σ : Type} (s : σ), ch.windowAdjustAmount s = .ok add s) ∧
      ((add = 0 ∧ Trim ch) ∨ (add ≠ 0 ∧ add.toNat = ch.deficit)) := by
  have hbound := h.bound
  have hmax := ch.recvMax.toNat_lt
  have hused : (UInt32.ofNat ch.inQBytes).toNat = ch.inQBytes := by
    rw [UInt32.toNat_ofNat', Nat.mod_eq_of_lt (by omega)]
  have hle : UInt32.ofNat ch.inQBytes ≤ ch.recvMax := by
    rw [UInt32.le_iff_toNat_le, hused]
    omega
  have hallowed : (saturatingSub32 ch.recvMax (UInt32.ofNat ch.inQBytes)).toNat
      = ch.recvMax.toNat - ch.inQBytes := by
    rw [saturatingSub32, if_pos hle, UInt32.toNat_sub_of_le _ _ hle, hused]
  unfold Channel.windowAdjustAmount
  generalize saturatingSub32 ch.recvMax (UInt32.ofNat ch.inQBytes) = allowed at hallowed
  by_cases hfull : allowed ≤ ch.recvWindow
  · refine ⟨0, fun s => by simp [hfull], .inl ⟨rfl, .inl ?_⟩⟩
    have hnat := UInt32.le_iff_toNat_le.mp hfull
    unfold Channel.deficit
    omega
  · have hsub : ch.recvWindow ≤ allowed := UInt32.le_of_lt (UInt32.not_le.mp hfull)
    have hadd : (allowed - ch.recvWindow).toNat = ch.deficit := by
      rw [UInt32.toNat_sub_of_le _ _ hsub, hallowed, Channel.deficit]
      omega
    by_cases hworth : allowed - ch.recvWindow ≥ ch.recvMax / 8
        ∨ ch.recvWindow < ch.recvMax / 4
    · refine ⟨allowed - ch.recvWindow, fun s => ?_, .inr ⟨fun hzero => hfull ?_, hadd⟩⟩
      · simp [hfull, Proc.checkedSub32_of_le hsub, hworth]
      · rw [hzero] at hadd
        rw [UInt32.le_iff_toNat_le]
        unfold Channel.deficit at hadd
        simp only [UInt32.toNat_zero] at hadd
        omega
    · refine ⟨0, fun s => ?_, .inl ⟨rfl, .inr ?_⟩⟩
      · simp [hfull, Proc.checkedSub32_of_le hsub, hworth]
      · have hsmall : (allowed - ch.recvWindow).toNat < (ch.recvMax / 8).toNat :=
          UInt32.lt_iff_toNat_lt.mp (UInt32.not_le.mp fun h => hworth (.inl h))
        rw [hadd, UInt32.toNat_div] at hsmall
        exact hsmall

/-- A grant fills the deficit. -/
theorem InOk.granted {add : UInt32} (h : InOk ch) (hadd : ch.windowAdjustAmount () = .ok add ())
    (hpos : add ≠ 0) :
    (ch.recvWindow + add).toNat + ch.inQBytes = ch.recvMax.toNat := by
  obtain ⟨add', happly, hcase⟩ := windowAdjustAmount_eq h
  cases (happly ()).symm.trans hadd
  rcases hcase with ⟨hzero, -⟩ | ⟨-, hdeficit⟩
  · exact absurd hzero hpos
  have hbound := h.bound
  have hmax := ch.recvMax.toNat_lt
  unfold Channel.deficit at hdeficit
  rw [UInt32.toNat_add, Nat.mod_eq_of_lt (by omega)]
  omega

theorem InOk.consumed {front : Bytes} {queue : List Bytes} {m : Nat} (h : InOk ch)
    (hq : ch.inQ = front :: queue) : InOk (consumed ch front queue m) := by
  have hexact := h.exact
  have hbound := h.bound
  rw [hq, List.map_cons, List.sum_cons] at hexact
  unfold Ssproxy.consumed
  by_cases hall : min m front.length = front.length
  · refine ⟨?_, ?_⟩
    · dsimp only
      rw [if_pos hall]
      omega
    · dsimp only
      omega
  · refine ⟨?_, ?_⟩
    · dsimp only
      rw [if_neg hall, List.map_cons, List.sum_cons, List.length_drop]
      omega
    · dsimp only
      omega

/-- The data field of a packet is no longer than the packet. -/
theorem length_of_dataMessage {p data : Bytes}
    (hm : Msg.channelData id data <+: p
      ∨ ∃ code, MsgType.channelExtendedData.code :: (putU32 id ++ putU32 code ++ putBytes data)
          <+: p) : data.length ≤ p.length := by
  rcases hm with hm | ⟨code, hm⟩
  · have hle := hm.length_le
    simp [Msg.channelData] at hle
    omega
  · have hle := hm.length_le
    simp at hle
    omega

theorem Act.inOk (h : Act id x ch k ch' new) (hshort : ∀ o ∈ new, o.Short) (hin : InOk ch) :
    InOk ch' := by
  cases h with
  | consume hq => exact hin.consumed hq
  | grantSilent hgate hadd hpos hr => exact ⟨hin.exact, Nat.le_of_eq (hin.granted hadd hpos)⟩
  | grant hgate hadd hpos hr => exact ⟨hin.exact, Nat.le_of_eq (hin.granted hadd hpos)⟩
  | @deliver p data hm hw =>
    have hlen : data.length < 2 ^ 32 := by
      have hp : p.length ≤ Ssproxy.maxPacket := hshort (.handled x p) List.mem_cons_self
      have hdata := length_of_dataMessage hm
      unfold Ssproxy.maxPacket at hp
      omega
    have hnat : (UInt32.ofNat data.length).toNat = data.length := by
      rw [UInt32.toNat_ofNat', Nat.mod_eq_of_lt hlen]
    have hle := UInt32.le_iff_toNat_le.mp hw
    have hbound := hin.bound
    refine ⟨?_, ?_⟩
    · simp [hin.exact]
    · dsimp only
      rw [UInt32.toNat_sub_of_le _ _ hw, hnat]
      omega
  | _ => exact ⟨hin.exact, hin.bound⟩

variable [CryptoLib]

/-- Every packet that was handled fitted into the packet buffer. -/
theorem Setup.Reaches.short {setup : Setup} (h : setup.Reaches c) : ∀ o ∈ c.log, o.Short := by
  obtain ⟨rng, c0, hstart, hmoves⟩ := h
  refine Moves.invariant (G := fun _ => True) (I := fun c => ∀ o ∈ c.log, o.Short) ?_ hmoves
    (setup.starts_wellFormed hstart) ?_ fun _ _ => trivial
  · intro c c' hwf hI hm _ o ho
    cases o with
    | handled b p =>
      rcases hm.mem_handled ho with hold | ⟨-, c1, hr⟩
      · exact hI _ hold
      · obtain ⟨cipher, rest, total, hopen, -⟩ := hr.opens
        exact hopen.short
    | _ => trivial
  · intro o ho
    cases o with
    | handled b p => cases hstart.extends.log.later.mem_handled ho
    | _ => trivial

/-- The buffer of every channel is within its bound. -/
theorem Setup.Reaches.inOk {setup : Setup} (h : setup.Reaches c)
    (hch : c.now.channels.get? id = some ch) : InOk ch :=
  h.channel hch (fun _ _ _ _ hf _ => hf.inOk) (fun _ _ _ _ _ _ hin ha hG => ha.inOk hG hin) h.short

-- ============================================================================
-- When credit is granted
-- ============================================================================

/-- `maybe_adjust` with the gate open leaves the peer short of no credit that is
    worth a message. -/
theorem maybeAdjust_trims (hgate : c.now.kexBlocksApp = false)
    (hch : c.now.channels.get? id = some ch) (hin : InOk ch) :
    (maybeAdjust id c).Sat (fun _ c' => c'.now.kexBlocksApp = false ∧
      ∃ ch', c'.now.channels.get? id = some ch' ∧ Trim ch') (fun _ _ => False) := by
  obtain ⟨add, hadd, hcase⟩ := windowAdjustAmount_eq hin
  unfold maybeAdjust
  rw [Proc.bind_of_ok (Traced.read_apply c), Proc.ite_apply, hgate, if_neg Bool.false_ne_true, hch]
  dsimp only
  rw [Proc.bind_of_ok (hadd c), Proc.ite_apply]
  rcases hcase with ⟨hzero, htrim⟩ | ⟨hpos, hdeficit⟩
  · rw [if_pos hzero]
    exact ⟨hgate, ch, hch, htrim⟩
  rw [if_neg hpos]
  have hbound := hin.bound
  have hmax := ch.recvMax.toNat_lt
  have hfits : ch.recvWindow.toNat + add.toNat < 2 ^ 32 := by
    unfold Channel.deficit at hdeficit
    omega
  have htrim : Trim { ch with recvWindow := ch.recvWindow + add } := by
    have hfull := hin.granted (hadd ()) hpos
    refine .inl ?_
    unfold Channel.deficit
    dsimp only
    omega
  rw [Proc.bind_of_ok (Proc.checkedAdd32_of_lt hfits c), Proc.bind_of_ok (setChannel_apply _ _ c)]
  refine Proc.sat_ifSome ?_ ?_
  · exact fun _ => ⟨hgate, _, ChannelTable.get?_set_self hch, htrim⟩
  · intro r _
    refine Proc.sat_ignore ((queueMsg_short _ _ _ (by simp) (by simp)).mono ?_ fun _ _ h => h.elim)
    intro _ c' hq
    refine ⟨(congrArg (·.conn.kexBlocksApp) hq.control).trans hgate, _, ?_, htrim⟩
    rw [hq.channels]
    exact ChannelTable.get?_set_self hch

/-- `consume_inbound` takes from the front chunk and then looks after the credit. -/
theorem consumeInbound_eq {front : Bytes} {queue : List Bytes} (n : Nat)
    (hch : c.now.channels.get? id = some ch) (hq : ch.inQ = front :: queue) :
    consumeInbound id n c = maybeAdjust id (withChannel c id (consumed ch front queue n)) := by
  have hle : min n front.length ≤ front.length := Nat.min_le_right _ _
  unfold consumeInbound consumed
  rw [Proc.bind_of_ok (Traced.read_apply c), hch]
  dsimp only
  rw [hq]
  dsimp only
  rw [Proc.ite_apply]
  split
  · rename_i hall
    rw [hall]
    rfl
  · rw [Proc.bind_of_ok (Proc.splitAt_of_le hle c)]
    rfl

/-- With nothing buffered it does nothing. -/
theorem consumeInbound_idle (n : Nat) (h : c.now.peekInbound id = none) :
    consumeInbound id n c = .ok () c := by
  unfold peekInbound at h
  unfold consumeInbound
  rw [Proc.bind_of_ok (Traced.read_apply c)]
  cases hch : c.now.channels.get? id with
  | none => rfl
  | some ch =>
    rw [hch, Option.bind_some, List.head?_eq_none_iff] at h
    dsimp only
    rw [h]
    rfl

theorem consumeInbound_trims {front : Bytes} {queue : List Bytes} (n : Nat)
    (hgate : c.now.kexBlocksApp = false) (hch : c.now.channels.get? id = some ch)
    (hq : ch.inQ = front :: queue) (hin : InOk ch) :
    (consumeInbound id n c).Sat (fun _ c' => ∃ ch', c'.now.channels.get? id = some ch' ∧ Trim ch')
      (fun _ _ => False) := by
  have hput : (withChannel c id (consumed ch front queue n)).now.channels.get? id
      = some (consumed ch front queue n) := ChannelTable.get?_set_self hch
  rw [consumeInbound_eq n hch hq]
  exact (maybeAdjust_trims (c := withChannel c id _) hgate hput (hin.consumed hq)).mono
    (fun _ _ h => h.2) fun _ _ h => h

/-- Its own steps leave the credit of a channel alone. -/
theorem Step.keepsCredit (h : Step .own c c') (hch' : c'.now.channels.get? id = some ch') :
    ∃ ch, c.now.channels.get? id = some ch ∧ (Trim ch → Trim ch') := by
  -- a write to a channel that does not touch its credit
  have hset : ∀ {j a b}, c.now.channels.get? j = some a →
      c'.now.channels = c.now.channels.set j b → b.deficit = a.deficit → b.recvMax = a.recvMax →
      ∃ ch, c.now.channels.get? id = some ch ∧ (Trim ch → Trim ch') := by
    intro j a b ha hset hd hm
    rw [hset, ChannelTable.get?_set ha] at hch'
    split at hch'
    · rename_i hj
      cases hch'
      refine ⟨a, hj ▸ ha, fun ht => ?_⟩
      unfold Trim
      rw [hd, hm]
      exact ht
    · exact ⟨ch', hch', fun ht => ht⟩
  have hsame : c'.now.channels = c.now.channels →
      ∃ ch, c.now.channels.get? id = some ch ∧ (Trim ch → Trim ch') :=
    fun hs => ⟨ch', hs ▸ hch', fun ht => ht⟩
  cases h with
  | pull =>
    obtain ⟨_, _, _, _, h⟩ := c.now.pullCurrentOut_eq
    exact hsame (by rw [h])
  | draw h => exact hsame h.channels
  | tick => exact hsame rfl
  | startKex hk hs h => exact hsame h.channels
  | hangUp h => exact hsame h.channels
  | closeEvent j => exact hsame rfl
  | flush hch hcan hp hne hq => exact hset hch hq.channels rfl rfl
  | flushLost hch hcan hp hne hhard => exact hset hch rfl rfl rfl
  | askClose hgate hch hc => exact hset hch rfl rfl rfl
  | closeAgain hch hc hw => exact hset hch rfl rfl rfl
  | closeSilent hgate hch hc hw hr => exact hset hch rfl rfl rfl
  | closeNow hgate hch hc hw hr hq => exact hset hch hq.channels rfl rfl
  | emitEofSilent hgate hch he hw hr => exact hset hch rfl rfl rfl
  | emitEof hgate hch he hw hr hq => exact hset hch hq.channels rfl rfl
  | emitCloseSilent hgate hch hc hw hr => exact hset hch rfl rfl rfl
  | emitClose hgate hch hc hw hr hq => exact hset hch hq.channels rfl rfl
  | @freeClosed _ j _ hch hg hw =>
    have hother : id ≠ j := by
      rintro rfl
      have hnone : (withoutChannel c id).now.channels.get? id = none :=
        ChannelTable.get?_release_self _ _
      rw [hnone] at hch'
      cases hch'
    refine ⟨ch', ?_, fun ht => ht⟩
    rw [← hch']
    exact (ChannelTable.get?_release_ne _ hother).symm

theorem Steps.keepsCredit (h : Steps c c') (hch' : c'.now.channels.get? id = some ch') :
    ∃ ch, c.now.channels.get? id = some ch ∧ (Trim ch → Trim ch') := by
  induction h generalizing ch' with
  | refl => exact ⟨ch', hch', fun ht => ht⟩
  | tail hpre hlast ih =>
    obtain ⟨ch1, hch1, h1⟩ := hlast.keepsCredit hch'
    obtain ⟨ch, hch, h0⟩ := ih hch1
    exact ⟨ch, hch, h1 ∘ h0⟩

/-- The gate is as it was. -/
abbrev SameGate (c c' : Conn) : Prop := c'.now.kexBlocksApp = c.now.kexBlocksApp

theorem Queues.sameGate {owner : Option UInt32} {payload : Bytes} (h : Queues owner payload c c') :
    SameGate c c' :=
  congrArg (·.conn.kexBlocksApp) h.control

omit [CryptoLib] in
theorem SameGate.trans {c1 : Conn} (h : SameGate c c1) (h' : SameGate c1 c') : SameGate c c' :=
  Eq.trans h' h

theorem flushPending_sameGate (id : UInt32) (c : Conn) :
    Proc.Returns SameGate (flushPending id) c := by
  unfold flushPending Proc.Returns
  rw [Proc.bind_of_ok (Traced.read_apply c), Proc.ite_apply]
  split
  · rfl
  rename_i hgate
  have hgate := eq_false_of_ne_true hgate
  refine (Proc.sat_loop (I := fun c' => c'.now.kexBlocksApp = false) (E := fun _ _ => False) ?_ _ c
    hgate).mono (fun _ _ h => h.trans hgate.symm) fun _ _ h => h
  exact fun c1 hg => (flushOnce_sat id c1 hg).mono (fun _ _ h => h.2.1) fun _ _ h => h

theorem emitEofIfReady_sameGate (id : UInt32) (c : Conn) :
    Proc.Follows SameGate (emitEofIfReady id) c := by
  unfold emitEofIfReady Proc.Follows
  rw [Proc.bind_of_ok (Traced.read_apply c), Proc.ite_apply]
  split
  · rfl
  cases c.now.channels.get? id with
  | none => rfl
  | some ch =>
    dsimp only
    rw [Proc.ite_apply]
    split
    · rfl
    rw [Proc.bind_of_ok (setChannel_apply _ _ c)]
    refine Proc.sat_ifSome (fun _ => rfl) fun r _ => ?_
    refine (queueMsg_short _ _ _ (by simp) (by simp)).mono ?_ fun _ _ h => h.elim
    exact fun _ _ hq => hq.sameGate

theorem emitCloseIfReady_sameGate (id : UInt32) (c : Conn) :
    Proc.Follows SameGate (emitCloseIfReady id) c := by
  unfold emitCloseIfReady Proc.Follows
  rw [Proc.bind_of_ok (Traced.read_apply c), Proc.ite_apply]
  split
  · rfl
  cases c.now.channels.get? id with
  | none => rfl
  | some ch =>
    dsimp only
    rw [Proc.ite_apply]
    split
    · rfl
    -- the CLOSE, if it is due, and the slot, if both sides closed
    have htail : ∀ (remote : Option UInt32) (c1 : Conn), SameGate c c1 → ((do
        Proc.ifSome remote fun r => queueMsg (some id) (MsgType.channelClose.code :: putU32 r) true
        let c ← Traced.read
        if (c.channels.get? id).any fun ch => ch.gotClose && ch.wireClose then freeChannel id
        else return () : ConnM Unit) c1).Sat (fun _ c' => SameGate c c')
          (fun _ c' => SameGate c c') := by
      intro remote c1 h1
      refine Outcome.Sat.bind (R := fun _ c2 => SameGate c c2) (Proc.sat_ifSome (fun _ => h1) ?_) ?_
      · intro r _
        refine (queueMsg_short _ _ _ (by simp) (by simp)).mono ?_ fun _ _ h => h.elim
        exact fun _ _ hq => h1.trans hq.sameGate
      · intro _ c2 h2
        rw [Proc.bind_of_ok (Traced.read_apply c2), Proc.ite_apply]
        split
        · rw [freeChannel_apply]
          exact h2
        · exact h2
    rw [Proc.ite_apply]
    split
    · exact htail none c rfl
    · rw [Proc.bind_of_ok (setChannel_apply _ _ c)]
      exact htail ch.remoteId (withChannel c id _) rfl

/-- Later in a run, with the gate open, no channel newly opened, and no credit
    lost. -/
structure Credited (setup : Setup) (c c' : Conn) : Prop where
  reached : setup.Reaches c'
  gate : c'.now.kexBlocksApp = false
  keeps : ∀ id ch', c'.now.channels.get? id = some ch' →
    ∃ ch, c.now.channels.get? id = some ch ∧ (Trim ch → Trim ch')

/-- Channel `id`, if it is live, has its credit. -/
def TrimAt (id : UInt32) (c : Conn) : Prop := ∀ ch, c.now.channels.get? id = some ch → Trim ch

theorem Setup.Reaches.steps {setup : Setup} (h : setup.Reaches c) (hs : Steps c c') :
    setup.Reaches c' := by
  obtain ⟨rng, c0, hstart, hmoves⟩ := h
  exact ⟨rng, c0, hstart, hmoves.trans (calms_moves (Trail.calms hs.trail))⟩

theorem Credited.trimAt {setup : Setup} (h : Credited setup c c') (ht : TrimAt id c) :
    TrimAt id c' := by
  intro ch' hch'
  obtain ⟨ch, hch, hk⟩ := h.keeps id ch' hch'
  exact hk (ht ch hch)

theorem Credited.trans {setup : Setup} {c1 : Conn} (h : Credited setup c c1)
    (h' : Credited setup c1 c') : Credited setup c c' := by
  refine ⟨h'.reached, h'.gate, fun id ch' hch' => ?_⟩
  obtain ⟨ch1, hch1, hk1⟩ := h'.keeps id ch' hch'
  obtain ⟨ch, hch, hk⟩ := h.keeps id ch1 hch1
  exact ⟨ch, hch, hk1 ∘ hk⟩

/-- The connection's own steps, with the gate as it was. -/
theorem Credited.of_steps {setup : Setup} (hr : setup.Reaches c) (hgate : c.now.kexBlocksApp = false)
    (hs : Steps c c') (hsame : SameGate c c') : Credited setup c c' :=
  ⟨hr.steps hs, Eq.trans hsame hgate, fun _ _ hch' => hs.keepsCredit hch'⟩

/-- A grant to channel `id` is no concern of the others. -/
theorem Adjusts.other {j : UInt32} (h : Adjusts id c c') (hj : j ≠ id) :
    c'.now.channels.get? j = c.now.channels.get? j := by
  cases h with
  | none => rfl
  | grant h =>
    cases h with
    | grantSilent hgate hch hadd hpos hr => exact ChannelTable.get?_set_ne hj
    | grant hgate hch hadd hpos hr hq =>
      rw [hq.channels]
      exact ChannelTable.get?_set_ne hj

theorem maybeAdjust_credited {setup : Setup} (h : setup.Reaches c)
    (hgate : c.now.kexBlocksApp = false) (id : UInt32) :
    (maybeAdjust id c).Sat (fun _ c' => Credited setup c c' ∧ TrimAt id c') (fun _ _ => False) := by
  cases hch : c.now.channels.get? id with
  | none =>
    have hidle : maybeAdjust id c = .ok () c := by
      unfold maybeAdjust
      rw [Proc.bind_of_ok (Traced.read_apply c), Proc.ite_apply, hgate,
        if_neg Bool.false_ne_true, hch]
      rfl
    rw [hidle]
    refine ⟨⟨h, hgate, fun _ ch' hch' => ⟨ch', hch', fun ht => ht⟩⟩, fun ch hch' => ?_⟩
    cases hch.symm.trans hch'
  | some ch =>
    refine ((maybeAdjust_returns id c).and (maybeAdjust_trims hgate hch (h.inOk hch))).mono ?_
      fun _ _ h => h.1
    rintro _ c' ⟨hadj, hgate', ch1, hch1, htrim⟩
    obtain ⟨rng, c0, hstart, hmoves⟩ := h
    refine ⟨⟨⟨rng, c0, hstart, hmoves.trans (calms_moves (Trail.calms hadj.trail))⟩, hgate', ?_⟩, ?_⟩
    · intro j ch' hch'
      by_cases hj : j = id
      · subst hj
        cases hch1.symm.trans hch'
        exact ⟨ch, hch, fun _ => htrim⟩
      · rw [hadj.other hj] at hch'
        exact ⟨ch', hch', fun ht => ht⟩
    · intro ch' hch'
      cases hch1.symm.trans hch'
      exact htrim

/-- One channel of `flush_post_rekey`. -/
theorem replay_credited {setup : Setup} (h : setup.Reaches c)
    (hgate : c.now.kexBlocksApp = false) (id : UInt32) :
    ((do
      maybeAdjust id
      flushPending id
      Proc.ignore (emitEofIfReady id)
      Proc.ignore (emitCloseIfReady id) : ConnM Unit) c).Sat
      (fun _ c' => Credited setup c c' ∧ TrimAt id c') (fun _ _ => False) := by
  refine (maybeAdjust_credited h hgate id).bind ?_
  rintro _ c1 ⟨h1, ht1⟩
  have hnext : ∀ {c2 c3}, Credited setup c c2 ∧ TrimAt id c2 → StepsAt id c2 c3 ∧ SameGate c2 c3 →
      Credited setup c c3 ∧ TrimAt id c3 := by
    rintro c2 c3 ⟨h2, ht2⟩ ⟨hs, hsame⟩
    have h3 := Credited.of_steps h2.reached h2.gate (StepsAt.steps hs) hsame
    exact ⟨h2.trans h3, h3.trimAt ht2⟩
  refine Outcome.Sat.bind (Outcome.Sat.mono
    ((flushPending_returns id c1).and (flushPending_sameGate id c1))
    (fun _ c2 h2 => hnext ⟨h1, ht1⟩ h2) fun _ _ h => h.1) fun _ c2 h2 => ?_
  refine Outcome.Sat.bind (Outcome.Sat.mono
    ((emitEofIfReady_follows id c2).ignore.and (emitEofIfReady_sameGate id c2).ignore)
    (fun _ c3 h3 => hnext h2 h3) fun _ _ h => h.1) fun _ c3 h3 => ?_
  exact Outcome.Sat.mono
    ((emitCloseIfReady_follows id c3).ignore.and (emitCloseIfReady_sameGate id c3).ignore)
    (fun _ c4 h4 => hnext h3 h4) fun _ _ h => h.1

theorem Setup.Reaches.sound {setup : Setup} (h : setup.Reaches c) : Sound c.now.channels := by
  obtain ⟨rng, c0, hstart, hmoves⟩ := h
  refine Moves.sound hmoves (setup.starts_wellFormed hstart) fun id ch hch => ?_
  rw [hstart.channels] at hch
  cases setup <;> cases hch

theorem flushPostRekey_credited {setup : Setup} (h : setup.Reaches c)
    (hgate : c.now.kexBlocksApp = false) :
    (flushPostRekey c).Sat (fun _ c' => ∀ id, TrimAt id c') (fun _ _ => False) := by
  have hloop : ∀ (ids : List UInt32) (c : Conn), setup.Reaches c → c.now.kexBlocksApp = false →
      (Proc.forEach (fun id => do
        maybeAdjust id
        flushPending id
        Proc.ignore (emitEofIfReady id)
        Proc.ignore (emitCloseIfReady id)) ids c).Sat
        (fun _ c' => Credited setup c c' ∧ ∀ id ∈ ids, TrimAt id c') (fun _ _ => False) := by
    intro ids
    induction ids with
    | nil =>
      intro c hr hg
      refine ⟨⟨hr, hg, fun _ ch' hch' => ⟨ch', hch', fun ht => ht⟩⟩, ?_⟩
      exact fun _ h => absurd h List.not_mem_nil
    | cons id ids ih =>
      intro c hr hg
      refine (replay_credited hr hg id).bind ?_
      rintro _ c1 ⟨h1, ht1⟩
      refine (ih c1 h1.reached h1.gate).mono ?_ fun _ _ h => h
      rintro _ c' ⟨h', ht'⟩
      refine ⟨h1.trans h', fun j hj => ?_⟩
      rcases List.mem_cons.mp hj with rfl | hj
      · exact h'.trimAt ht1
      · exact ht' j hj
  unfold flushPostRekey
  rw [Proc.bind_of_ok (Traced.read_apply c)]
  refine (hloop _ c h hgate).mono ?_ fun _ _ h => h
  rintro _ c' ⟨hc, ht⟩ id ch' hch'
  -- a channel that is live now was live when the replay began
  obtain ⟨ch, hch, -⟩ := hc.keeps id ch' hch'
  exact ht id (h.sound.mem_iterIds hch) ch' hch'

/-- The NEWKEYS that ends a rekey leaves every channel with its credit. -/
theorem onNewkeys_credited {setup : Setup} {c1 : Conn} {p : Bytes} (h : setup.Reaches c)
    (hr : Receives p c c1) (hm : IsMsg .newkeys p) (hf : c1.now.firstKexDone = true) :
    (onNewkeys c1).Sat (fun _ c' => ∀ id, TrimAt id c') (fun _ _ => True) := by
  have hwf1 := hr.wellFormed h.wellFormed
  cases hpk : c1.now.pendingKeys with
  | none =>
    rw [onNewkeys_none hpk]
    trivial
  | some pk =>
    have hsent : c1.now.sentNewkeys = true := (hwf1.kex.pending pk hpk).2.1
    obtain ⟨rng, c0, hstart, hmoves⟩ := h
    have hdone := Move.quiet (.handle (Handles.newkeysAgain hr hm hpk hf))
    rw [onNewkeys_again hpk hsent hf]
    refine Outcome.Sat.bind (Outcome.Sat.mono
      (flushPostRekey_credited ⟨rng, c0, hstart, hmoves.tail hdone⟩ rfl) (fun _ _ h => h)
      fun _ _ h => h.elim) fun _ c2 h2 => ?_
    exact h2

/-- An exchange after the first one completed. -/
def Obs.isRekey : Obs → Bool
  | kexCompleted before => before.firstKexDone
  | _ => false

/-- How many exchanges after the first one completed. -/
def rekeys (log : List Obs) : Nat := log.countP Obs.isRekey

section Rekeys

variable {l l' : List Obs} {o : Obs}

omit [CryptoLib] in
theorem rekeys_concat (ho : o.isRekey = false) : rekeys (l ++ [o]) = rekeys l := by
  unfold rekeys
  rw [List.countP_append, List.countP_singleton, ho, if_neg Bool.false_ne_true, Nat.add_zero]

omit [CryptoLib] in
theorem Grows.rekeys (h : Grows l l') : rekeys l' = rekeys l := by
  obtain ⟨new, rfl, hnew⟩ := h
  have hnone : new.countP Obs.isRekey = 0 := by
    rw [List.countP_eq_zero]
    intro o ho hrekey
    have hroutine := hnew o ho
    cases o with
    | kexCompleted b => exact hroutine.elim
    | _ => cases hrekey
  unfold Ssproxy.rekeys
  rw [List.countP_append, hnone, Nat.add_zero]

theorem Receives.rekeys {p : Bytes} (h : Receives p c c') : rekeys c'.log = rekeys c.log := by
  rw [h.log]
  exact rekeys_concat rfl

/-- Only a NEWKEYS completes a rekey. -/
theorem Handles.rekeys {p : Bytes} (h : Handles p c c') :
    rekeys c'.log = rekeys c.log ∨ IsMsg .newkeys p ∧ c.now.firstKexDone = true := by
  -- handlers whose observations are all routine
  have hplain : ∀ {c1 : Conn}, Receives p c c1 → Grows c1.log c'.log →
      Ssproxy.rekeys c'.log = Ssproxy.rekeys c.log ∨
        IsMsg .newkeys p ∧ c.now.firstKexDone = true :=
    fun hr hl => .inl (hl.rekeys.trans hr.rekeys)
  have hdone : ∀ {c1 : Conn}, Receives p c c1 → c.now.firstKexDone = c1.now.firstKexDone :=
    fun hr => (congrArg (·.conn.firstKexDone) hr.control).symm
  cases h with
  | skip hr h => exact hplain hr (.refl _)
  | answer hr h hq => exact hplain hr hq.extends.log
  | kexinitServer hr hm hrole hp hj hk hn => exact hplain hr hj.extends.log
  | kexinitClient hr hm hrole hp hj hk hn hpub hq =>
    exact hplain hr (hj.extends.log.trans hq.extends.log)
  | ecdhInit hr hrole hm hcfg hx hz hq hs => exact hplain hr (hq.extends.trans hs.extends).log
  | ecdhReply hr hrole hm hpub hsec hx hks hsig hz hs => exact hplain hr hs.extends.log
  | newkeysFirst hr hm hpk hf hg =>
    exact .inl ((hg.extends.log.rekeys.trans (rekeys_concat hf)).trans hr.rekeys)
  | newkeysAgain hr hm hpk hf => exact .inr ⟨hm, (hdone hr).trans hf⟩
  | userauthSuccess hr hm =>
    exact .inl ((rekeys_concat rfl).trans ((rekeys_concat rfl).trans hr.rekeys))
  | authAccept hr hrole hcfg hm hok hq =>
    exact .inl ((rekeys_concat rfl).trans (hq.extends.log.rekeys.trans
      ((rekeys_concat rfl).trans ((rekeys_concat rfl).trans hr.rekeys))))
  | authReject hr hrole hcfg hm hbad hd =>
    have hnoted := hd.extends.log.rekeys.trans (rekeys_concat rfl)
    exact .inl (hnoted.trans hr.rekeys)
  | authOther hr hrole hcfg hm hd => exact hplain hr hd.extends.log
  | disconnect hr hm => exact hplain hr (.single trivial)
  | openSession hr hm hauth ha => exact hplain hr (ha.extends.log.trans (.single trivial))
  | openDirect hr hm hauth ha => exact hplain hr (ha.extends.log.trans (.single trivial))
  | openConfirm hr hm hch => exact hplain hr (.single trivial)
  | openFail hr hm => exact hplain hr ((extends_withoutChannel _ _).log.trans (.single trivial))
  | windowAdjust hr hm hch => exact hplain hr (.refl _)
  | deliver hr hm hch hw => exact hplain hr (.single trivial)
  | peerEof hr hm hch => exact hplain hr (.single trivial)
  | peerEofUnknown hr hm hch => exact hplain hr (.single trivial)
  | peerClose hr hm hch => exact hplain hr (.refl _)

/-- A packet that completes a rekey leaves every channel with its credit. -/
theorem tryOnePacket_credited {setup : Setup} (h : setup.Reaches c)
    (hid : c.now.identInDone = true) :
    (tryOnePacket c).Sat (fun _ c' => Ssproxy.rekeys c'.log = Ssproxy.rekeys c.log ∨
      ∀ id, TrimAt id c') (fun _ _ => True) := by
  refine (tryOnePacket_rule (Q := fun p c' => Ssproxy.rekeys c'.log = Ssproxy.rekeys c.log ∨
      ∀ id, TrimAt id c') (E := fun _ => True) c h.wellFormed hid (fun _ _ => trivial)
      ?_).mono ?_ fun _ _ _ => trivial
  · intro p c1 hr hwf1 hid1
    by_cases hrekey : IsMsg .newkeys p ∧ c1.now.firstKexDone = true
    · rw [handlePayload_eq hrekey.1]
      exact (onNewkeys_credited h hr hrekey.1 hrekey.2).mono (fun _ _ ht => .inr ht)
        fun _ _ _ => trivial
    · refine (handlePayload_sat hr hwf1 hid1).mono ?_ fun _ _ _ => trivial
      have hdone : c1.now.firstKexDone = c.now.firstKexDone :=
        congrArg (·.conn.firstKexDone) hr.control
      intro _ c' hh
      have hhandles : ∀ {c2}, Handles p c c2 →
          Ssproxy.rekeys c2.log = Ssproxy.rekeys c.log := by
        intro c2 hh
        rcases hh.rekeys with hsame | hnew
        · exact hsame
        · exact absurd (hdone ▸ hnew) hrekey
      cases hh with
      | plain hh => exact .inl (hhandles hh)
      -- what follows the handling is routine
      | trailing hh ht hs hidle => exact .inl (hs.trail.extends.log.rekeys.trans (hhandles hh))
  · rintro again c' (⟨-, rfl⟩ | ⟨-, p, hq⟩)
    · exact .inl rfl
    · exact hq

end Rekeys

-- ============================================================================
-- What is read
-- ============================================================================

/-- A field with its length in front. -/
def stringField : Bytes → Bytes
  | b0 :: b1 :: b2 :: b3 :: rest => rest.take (ofBe b0 b1 b2 b3).toNat
  | _ => []

/-- The data field of a CHANNEL_DATA or CHANNEL_EXTENDED_DATA.  It follows the
    number of the message, the recipient and, in the latter, the type code. -/
def dataField (p : Bytes) : Bytes :=
  if IsMsg .channelData p then stringField (p.drop 5)
  else if IsMsg .channelExtendedData p then stringField (p.drop 9)
  else []

/-- The last packet handled, and the data accepted on a channel. -/
structure Inflow where
  packet : Bytes
  bytes : Bytes
  deriving DecidableEq

/-- One observation.  A channel that is opened starts anew; its data was
    accepted when the event for it is emitted. -/
def Inflow.note (id : UInt32) (s : Inflow) : Obs → Inflow
  | .handled _ p => { s with packet := p }
  | .opened j => if j = id then { s with bytes := [] } else s
  | .emitted ev =>
      if ev = .channelData id then { s with bytes := s.bytes ++ dataField s.packet } else s
  | _ => s

/-- The data accepted on channel `id` since it was last opened. -/
def inflowOf (id : UInt32) (log : List Obs) : Inflow := log.foldl (Inflow.note id) ⟨[], []⟩

/-- How often slot `id` was filled. -/
def openings (id : UInt32) (log : List Obs) : Nat := log.countP (Obs.opens id)

section History

variable {l : List Obs} {p data : Bytes}

omit [CryptoLib]

theorem inflowOf_append (id : UInt32) (l new : List Obs) :
    inflowOf id (l ++ new) = new.foldl (Inflow.note id) (inflowOf id l) := List.foldl_append

theorem Inflow.note_off {o : Obs} (s : Inflow) (h : o.Off id) : (s.note id o).bytes = s.bytes := by
  cases o with
  | opened j =>
    rw [Inflow.note, if_neg h]
  | emitted ev =>
    rw [Inflow.note, if_neg h]
  | _ => rfl

theorem inflowOf_off (h : ∀ o ∈ new, o.Off id) :
    (inflowOf id (l ++ new)).bytes = (inflowOf id l).bytes := by
  rw [inflowOf_append]
  generalize inflowOf id l = s
  induction new generalizing s with
  | nil => rfl
  | cons o new ih =>
    rw [List.foldl_cons, ih fun o' ho' => h o' (List.mem_cons_of_mem _ ho')]
    exact s.note_off (h o List.mem_cons_self)

theorem openings_append (h : ∀ o ∈ new, o.opens id = false) :
    openings id (l ++ new) = openings id l := by
  have hnone : new.countP (Obs.opens id) = 0 := by
    rw [List.countP_eq_zero]
    exact fun o ho hopens => by rw [h o ho] at hopens; cases hopens
  rw [openings, List.countP_append, hnone, Nat.add_zero, openings]

theorem stringField_putBytes (rest : Bytes) (h : data.length < 2 ^ 32) :
    stringField (putBytes data ++ rest) = data := by
  have hlen : (UInt32.ofNat data.length).toNat = data.length := by
    rw [UInt32.toNat_ofNat', Nat.mod_eq_of_lt h]
  have hfield : stringField (putBytes data ++ rest)
      = (data ++ rest).take (UInt32.ofNat data.length).toNat := by
    rw [putBytes, List.append_assoc]
    show (data ++ rest).take (ofBe _ _ _ _).toNat = _
    rw [ofBe_beBytes]
  rw [hfield, hlen, List.take_left]

/-- What a data message carries is its data field. -/
theorem dataField_of_dataMessage (hp : p.length < 2 ^ 32)
    (hm : Msg.channelData id data <+: p
      ∨ ∃ code, MsgType.channelExtendedData.code :: (putU32 id ++ putU32 code ++ putBytes data)
          <+: p) : dataField p = data := by
  have hlen := Nat.lt_of_le_of_lt (length_of_dataMessage hm) hp
  rcases hm with ⟨rest, rfl⟩ | ⟨code, rest, rfl⟩
  · have hmsg : IsMsg .channelData (Msg.channelData id data ++ rest) := rfl
    rw [dataField, if_pos hmsg]
    exact stringField_putBytes rest hlen
  · have hother : MsgType.channelExtendedData ≠ .channelData := by decide
    have hdrop : (MsgType.channelExtendedData.code ::
        ((putU32 id ++ putU32 code ++ putBytes data) ++ rest)).drop 9 = putBytes data ++ rest := by
      simp [putU32, beBytes]
    have hext : IsMsg .channelExtendedData (MsgType.channelExtendedData.code ::
        ((putU32 id ++ putU32 code ++ putBytes data) ++ rest)) := rfl
    rw [List.cons_append, dataField, if_neg (not_isMsg_cons hother), if_pos hext, hdrop]
    exact stringField_putBytes rest hlen

end History

/-- What was handed out of channel `id`, and what is still buffered, is what was
    accepted. -/
def Delivered (id : UInt32) (out : Bytes) (c : Conn) : Prop :=
  ∀ ch, c.now.channels.get? id = some ch → out ++ ch.inQ.flatten = (inflowOf id c.log).bytes

/-- The same after some steps, `n` being how often the slot was filled before:
    a channel opened since then has handed out nothing. -/
structure DeliveredSince (id : UInt32) (out : Bytes) (n : Nat) (c : Conn) : Prop where
  since : n ≤ openings id c.log
  delivered : Delivered id (if openings id c.log = n then out else []) c

omit [CryptoLib] in
/-- An act that does not consume leaves the balance. -/
theorem Act.delivered {l : List Obs} (h : Act id x ch k ch' new)
    (hk : ∀ m, k ≠ .call (.consumeInbound id m)) (hshort : ∀ o ∈ new, o.Short) :
    ∃ more, ch'.inQ.flatten = ch.inQ.flatten ++ more ∧
      (inflowOf id (l ++ new)).bytes = (inflowOf id l).bytes ++ more := by
  rw [inflowOf_append]
  generalize inflowOf id l = s
  cases h with
  | consume hq => exact absurd rfl (hk _)
  | @deliver p data hm hw =>
    have hp : p.length ≤ Ssproxy.maxPacket := hshort (.handled x p) List.mem_cons_self
    have hdata : dataField p = data := by
      refine dataField_of_dataMessage ?_ hm
      unfold Ssproxy.maxPacket at hp
      omega
    refine ⟨data, by simp, ?_⟩
    simp [Inflow.note, hdata]
  | _ => exact ⟨[], (List.append_nil _).symm, by simp [Inflow.note]⟩

omit [CryptoLib] in
/-- A new channel has nothing buffered. -/
theorem Fresh.delivered (h : Fresh id x k ch new) (l : List Obs) : ch.inQ = [] ∧
    (inflowOf id (l ++ new)).bytes = [] ∧ openings id (l ++ new) = openings id l + 1 := by
  cases h with
  | @peer p kind typ remote w m port host ev hm hev =>
    refine ⟨rfl, ?_, ?_⟩
    · rw [inflowOf_append]
      simp [Inflow.note, hev]
    · simp [openings, Obs.opens]
  | @here host port new hrole hnew =>
    have hoff : ∀ o ∈ new, o.opens id = false := by
      intro o ho
      obtain ⟨b, w, rfl⟩ := hnew o ho
      rfl
    have hsplit : l ++ .opened id :: new = (l ++ [.opened id]) ++ new := by simp
    refine ⟨rfl, ?_, ?_⟩
    · rw [hsplit, inflowOf_append]
      have hopened : (inflowOf id (l ++ [.opened id])).bytes = [] := by
        rw [inflowOf_append]
        simp [Inflow.note]
      generalize inflowOf id (l ++ [.opened id]) = s at hopened
      clear hsplit hoff
      induction new generalizing s with
      | nil => exact hopened
      | cons o new ih =>
        obtain ⟨b, w, rfl⟩ := hnew o List.mem_cons_self
        exact ih (fun o ho => hnew o (List.mem_cons_of_mem _ ho)) _ hopened
    · rw [hsplit, openings_append hoff]
      simp [openings, Obs.opens]

omit [CryptoLib] in
theorem DeliveredSince.step {out : Bytes} {n : Nat} (h : DeliveredSince id out n c)
    (hk : ∀ m, k ≠ .call (.consumeInbound id m)) (hs : SlotStep id k c c')
    (hshort : ∀ o ∈ c'.log, o.Short) : DeliveredSince id out n c' := by
  cases hs with
  | idle hget hlog hnew =>
    have hopen : openings id c'.log = openings id c.log := by
      rw [hlog]
      exact openings_append fun o ho => (hnew o ho).mute.1
    refine ⟨hopen ▸ h.since, fun ch hch => ?_⟩
    rw [hopen, hlog, inflowOf_off hnew]
    exact h.delivered ch (hget ▸ hch)
  | act hch hch' ha hlog =>
    have hopen : openings id c'.log = openings id c.log := by
      rw [hlog]
      exact openings_append ha.opens
    refine ⟨hopen ▸ h.since, fun ch1 hch1 => ?_⟩
    cases hch'.symm.trans hch1
    rw [hlog] at hshort
    obtain ⟨more, hq, hin⟩ := ha.delivered (l := c.log) hk
      fun o ho => hshort o (List.mem_append_right _ ho)
    rw [hopen, hlog, hq, hin, ← h.delivered _ hch, List.append_assoc]
  | enter hch' hf hlog =>
    obtain ⟨hq, hin, hopen⟩ := hf.delivered c.log
    rw [← hlog] at hin hopen
    have hsince := h.since
    refine ⟨by omega, fun ch1 hch1 => ?_⟩
    cases hch'.symm.trans hch1
    rw [if_neg (by omega), hq, hin]
    rfl
  | leave hch hnone hl hlog =>
    have hopen : openings id c'.log = openings id c.log := by
      rw [hlog]
      exact openings_append fun o ho => (hl.mute o ho).1
    refine ⟨hopen ▸ h.since, fun ch1 hch1 => ?_⟩
    cases hnone.symm.trans hch1

/-- The bytes that `call` hands out of channel `id`. -/
def Call.handsOut (id : UInt32) (call : Call) (c : Connection) : Bytes :=
  match call with
  | .consumeInbound j n => if j = id then ((c.peekInbound id).getD []).take n else []
  | _ => []

/-- `runCalls`, returning the bytes that were handed out of channel `id` since it
    was last opened; `out` are those of before. -/
def readCalls (id : UInt32) : List Call → Bytes → ConnM Bytes
  | [], out => pure out
  | call :: calls, out => do
      let c ← Proc.get
      Proc.ignore call.run
      let c' ← Proc.get
      readCalls id calls
        (if openings id c'.log = openings id c.log then out ++ call.handsOut id c.now else [])

/-- `Setup.run`, returning the bytes that were handed out of channel `id` since it
    was last opened. -/
def Setup.read (setup : Setup) (rng : Rng) (id : UInt32) (calls : List Call) :
    Outcome Conn Error Bytes :=
  (do Proc.ignore Connection.startKex; readCalls id calls []) ⟨setup.blank rng, []⟩

theorem Setup.Reaches.moves {setup : Setup} (h : setup.Reaches c) (hm : Moves c c') :
    setup.Reaches c' := by
  obtain ⟨rng, c0, hstart, hmoves⟩ := h
  exact ⟨rng, c0, hstart, hmoves.trans hm⟩

/-- A call that leads to `c'`. -/
theorem Call.run_moves {call : Call} (hwf : WellFormed c) (h : (call.run c).state? = some c') :
    Moves c c' := by
  rcases Outcome.state?_eq_some h with ⟨a, hok⟩ | ⟨e, herr⟩
  · exact (call.run_follows c hwf).of_ok hok
  · exact (call.run_follows c hwf).of_err herr

/-- What a call hands out of a channel is taken from the front of its buffer. -/
theorem Delivered.call {setup : Setup} {out : Bytes} {call : Call} (h : Delivered id out c)
    (hr : setup.Reaches c) (hend : (call.run c).state? = some c') :
    Delivered id (if openings id c'.log = openings id c.log then out ++ call.handsOut id c.now
      else []) c' := by
  have hshort : ∀ o ∈ c'.log, o.Short := (hr.moves (call.run_moves hr.wellFormed hend)).short
  by_cases hcall : ∃ n, call = .consumeInbound id n
  · obtain ⟨n, rfl⟩ := hcall
    cases hpeek : c.now.peekInbound id with
    | none =>
      have hidle : (Call.consumeInbound id n).run c = .ok () c := consumeInbound_idle n hpeek
      rw [hidle] at hend
      cases hend
      rw [if_pos rfl, Call.handsOut, if_pos rfl, hpeek]
      simpa using h
    | some front =>
      obtain ⟨ch, queue, hch, hq⟩ : ∃ ch queue, c.now.channels.get? id = some ch ∧
          ch.inQ = front :: queue := by
        unfold peekInbound at hpeek
        obtain ⟨ch, hch, hhead⟩ := Option.bind_eq_some_iff.mp hpeek
        obtain ⟨queue, hq⟩ := List.head?_eq_some_iff.mp hhead
        exact ⟨ch, queue, hch, hq⟩
      -- the bytes are taken, then credit may be granted
      have htaken : DeliveredSince id (out ++ front.take n) (openings id c.log)
          (withChannel c id (consumed ch front queue n)) := by
        refine ⟨Nat.le_refl _, fun ch1 hch1 => ?_⟩
        have hput : (withChannel c id (consumed ch front queue n)).now.channels.get? id
            = some (consumed ch front queue n) := ChannelTable.get?_set_self hch
        cases hput.symm.trans hch1
        have hbalance : out ++ ch.inQ.flatten = (inflowOf id c.log).bytes := h ch hch
        have hrest : front.take n ++ (consumed ch front queue n).inQ.flatten = ch.inQ.flatten := by
          unfold consumed
          dsimp only
          rw [hq, List.flatten_cons]
          split
          · rename_i hall
            rw [List.take_of_length_le (by omega)]
          · rename_i hpart
            have hmin : min n front.length = n := by omega
            rw [hmin, List.flatten_cons, ← List.append_assoc, List.take_append_drop]
        rw [show (withChannel c id (consumed ch front queue n)).log = c.log from rfl, if_pos rfl,
          List.append_assoc, hrest, hbalance]
      have hrun : (Call.consumeInbound id n).run c
          = maybeAdjust id (withChannel c id (consumed ch front queue n)) :=
        consumeInbound_eq n hch hq
      rw [hrun] at hend
      have hwf1 : WellFormed (withChannel c id (consumed ch front queue n)) :=
        (Step.consume (m := n) hch hq).wellFormed hr.wellFormed
      have hadj : Adjusts id (withChannel c id (consumed ch front queue n)) c' := by
        have hsat := maybeAdjust_returns id (withChannel c id (consumed ch front queue n))
        rcases Outcome.state?_eq_some hend with ⟨a, hok⟩ | ⟨e, herr⟩
        · exact hsat.of_ok hok
        · exact (hsat.of_err herr).elim
      have hslots : SlotSteps id Cause.Inner (withChannel c id (consumed ch front queue n)) c' :=
        hadj.trail.slots hwf1
      rw [Call.handsOut, if_pos rfl, hpeek]
      refine (hslots.invariant (G := Obs.Short) ?_ htaken hshort).delivered
      intro k c1 c2 hk hI hs hG
      exact hI.step (fun m hm => by rw [hm] at hk; exact hk) hs hG
  · have hnone : call.handsOut id c.now = [] := by
      cases call with
      | consumeInbound j n =>
        rw [Call.handsOut, if_neg]
        rintro rfl
        exact hcall ⟨n, rfl⟩
      | _ => rfl
    have hsince : DeliveredSince id out (openings id c.log) c :=
      ⟨Nat.le_refl _, by rw [if_pos rfl]; exact h⟩
    have hslots : SlotSteps id (fun k => k.Inner ∨ k = .call call) c c' :=
      call.run_slots hr.wellFormed hend
    rw [hnone, List.append_nil]
    refine (hslots.invariant (G := Obs.Short) ?_ hsince hshort).delivered
    intro k c1 c2 hk hI hs hG
    refine hI.step (fun m hm => ?_) hs hG
    subst hm
    rcases hk with hk | hk
    · exact hk
    · cases hk
      exact hcall ⟨m, rfl⟩

/-- Calls one after the other keep the balance, and the state is that of
    `runCalls`. -/
theorem readCalls_sat {setup : Setup} (calls : List Call) (out : Bytes) (c : Conn)
    (h : Delivered id out c) (hr : setup.Reaches c) :
    (readCalls id calls out c).Sat
      (fun out' c' => Delivered id out' c' ∧ runCalls calls c = .ok () c')
      (fun _ _ => False) := by
  induction calls generalizing out c with
  | nil => exact ⟨h, rfl⟩
  | cons call calls ih =>
    obtain ⟨c1, hrun, hend⟩ : ∃ c1, Proc.ignore call.run c = .ok () c1 ∧
        (call.run c).state? = some c1 := by
      unfold Proc.ignore
      cases hcall : call.run c with
      | panic => exact absurd hcall (call.run_follows c hr.wellFormed).ne_panic
      | ok a c1 => exact ⟨c1, rfl, rfl⟩
      | err e c1 => exact ⟨c1, rfl, rfl⟩
    have hr1 : setup.Reaches c1 := hr.moves (call.run_moves hr.wellFormed hend)
    unfold readCalls
    rw [Proc.bind_of_ok (Proc.get_apply c), Proc.bind_of_ok hrun,
      Proc.bind_of_ok (Proc.get_apply c1)]
    refine (ih _ c1 (h.call hr hend) hr1).mono ?_ fun _ _ h => h
    rintro out' c' ⟨hdelivered, hrest⟩
    refine ⟨hdelivered, ?_⟩
    unfold runCalls Proc.forEach
    rw [Proc.bind_of_ok hrun]
    exact hrest

/-- In every run, what was handed out of a live channel and what is buffered are
    the data accepted on it. -/
theorem Setup.read_delivered (setup : Setup) (rng : Rng) (id : UInt32) (calls : List Call) :
    ∃ out c, setup.read rng id calls = .ok out c ∧ setup.run rng calls = .ok () c ∧
      Delivered id out c := by
  obtain ⟨c0, h0, hok⟩ : ∃ c0, Starts ⟨setup.blank rng, []⟩ c0 ∧
      Proc.ignore startKex ⟨setup.blank rng, []⟩ = .ok () c0 := by
    have hstart := startKex_sat ⟨setup.blank rng, []⟩
    unfold Proc.ignore
    cases hs : startKex ⟨setup.blank rng, []⟩ with
    | panic => exact absurd hs hstart.ne_panic
    | ok a c0 => exact ⟨c0, hstart.of_ok hs, rfl⟩
    | err e c0 => exact (hstart.of_err hs).elim
  have hfresh : Delivered id [] c0 := by
    intro ch hch
    rw [h0.channels] at hch
    cases setup <;> cases hch
  have hsat := readCalls_sat calls [] c0 hfresh (⟨rng, c0, h0, .refl⟩ : setup.Reaches c0)
  unfold Setup.read Setup.run
  rw [Proc.bind_of_ok hok, Proc.bind_of_ok hok]
  cases hd : readCalls id calls [] c0 with
  | panic => exact absurd hd hsat.ne_panic
  | err e c => exact (hsat.of_err hd).elim
  | ok out c =>
    obtain ⟨hdelivered, hrun⟩ := hsat.of_ok hd
    exact ⟨out, c, rfl, hrun, hdelivered⟩

/-- Whatever the peer and the application do: no byte is lost, invented or
    reordered on its way to the reader, no channel buffers more than its maximum
    window, and reading, like a rekey, returns all credit worth a message. -/
theorem Setup.inbound_accounted (setup : Setup) :
    (∀ rng calls id, ∃ out c, setup.read rng id calls = .ok out c ∧
      setup.run rng calls = .ok () c ∧
      ∀ ch, c.now.channels.get? id = some ch →
        out ++ ch.inQ.flatten = (inflowOf id c.log).bytes) ∧
    (∀ c id ch, setup.Reaches c → c.now.channels.get? id = some ch →
      ch.inQBytes = (ch.inQ.map List.length).sum ∧
        ch.recvWindow.toNat + ch.inQBytes ≤ ch.recvMax.toNat) ∧
    (∀ c id ch n, setup.Reaches c → c.now.channels.get? id = some ch → ch.inQ ≠ [] →
      c.now.kexBlocksApp = false → ∃ c' ch', consumeInbound id n c = .ok () c' ∧
        c'.now.channels.get? id = some ch' ∧ Trim ch') ∧
    ∀ c c' again, setup.Reaches c → c.now.identInDone = true →
      tryOnePacket c = .ok again c' → rekeys c.log < rekeys c'.log →
      ∀ id ch', c'.now.channels.get? id = some ch' → Trim ch' := by
  refine ⟨fun rng calls id => setup.read_delivered rng id calls, ?_, ?_, ?_⟩
  · intro c id ch hr hch
    have hin : InOk ch := hr.inOk hch
    exact ⟨hin.exact, hin.bound⟩
  · intro c id ch n hr hch hne hgate
    obtain ⟨front, queue, hq⟩ := List.exists_cons_of_ne_nil hne
    have hsat := consumeInbound_trims n hgate hch hq (hr.inOk hch)
    cases hrun : consumeInbound id n c with
    | panic => exact absurd hrun hsat.ne_panic
    | err e c' => exact (hsat.of_err hrun).elim
    | ok a c' =>
      obtain ⟨ch', hch', htrim⟩ := hsat.of_ok hrun
      exact ⟨c', ch', rfl, hch', htrim⟩
  · intro c c' again hr hid hrun hrekey id ch' hch'
    rcases (tryOnePacket_credited hr hid).of_ok hrun with hsame | htrim
    · omega
    · exact htrim id ch' hch'

/-- A byte taken from the middle of what the peer sent. -/
def Setup.partialRead : List Call :=
  [.recv (Setup.plainPeer 1000 1000 ++ Toy.clearPacket (Msg.channelData 0 [97, 98, 99])),
    .processIn, .consumeInbound 0 1]

omit [CryptoLib] in
theorem Setup.inbound_accounted_partialRead : ∃ c ch,
    @Setup.read Toy.lib (.server Toy.server) Toy.rng 0 partialRead = .ok [97] c ∧
      c.now.channels.get? 0 = some ch ∧ ch.inQ = [[98, 99]] ∧
      (inflowOf 0 c.log).bytes = [97, 98, 99] ∧ ch.recvWindow.toNat + 2 ≤ ch.recvMax.toNat := by
  have hpass : (@Setup.run Toy.lib (.server Toy.server) Toy.rng partialRead).passes (fun c =>
      ((c.now.channels.get? 0).any fun ch => decide (ch.inQ = [[98, 99]])) &&
        decide ((inflowOf 0 c.log).bytes = [97, 98, 99])) = true := by
    decide +kernel
  obtain ⟨_, c, hrun, hc⟩ := Outcome.exists_of_passes hpass
  rw [Bool.and_eq_true, Option.any_eq_true] at hc
  obtain ⟨⟨ch, hch, hq⟩, hin⟩ := hc
  replace hq := of_decide_eq_true hq
  replace hin := of_decide_eq_true hin
  obtain ⟨hread, hcredit, -⟩ := @Setup.inbound_accounted Toy.lib (.server Toy.server)
  obtain ⟨out, c', hout, hrun', hbalance⟩ := hread Toy.rng partialRead 0
  cases hrun'.symm.trans hrun
  have hb := hbalance ch hch
  rw [hq, hin] at hb
  obtain rfl : out = [97] := (List.append_left_inj [98, 99]).mp (by simpa using hb)
  obtain ⟨hexact, hbound⟩ := hcredit c 0 ch (@Reaches.of_run Toy.lib _ _ _ c hrun) hch
  rw [hexact, hq] at hbound
  exact ⟨c, ch, hout, hch, hq, hin, hbound⟩

-- ============================================================================
-- Empty chunks
-- ============================================================================

/-- A data message for channel `id` with nothing in it. -/
def EmptyData (id : UInt32) (p : Bytes) : Prop :=
  Msg.channelData id [] <+: p
    ∨ ∃ code, MsgType.channelExtendedData.code :: (putU32 id ++ putU32 code ++ putBytes []) <+: p

/-- Not such a message for a channel that is there. -/
def Obs.Fills : Obs → Prop
  | handled before p => ∀ id, (before.channels.get? id).isSome = true → ¬EmptyData id p
  | _ => True

omit [CryptoLib] in
theorem consumed_chunks {front : Bytes} {queue : List Bytes} {m : Nat}
    (hq : ch.inQ = front :: queue) (h : ∀ chunk ∈ ch.inQ, chunk ≠ []) :
    ∀ chunk ∈ (consumed ch front queue m).inQ, chunk ≠ [] := by
  have hqueue : ∀ chunk ∈ queue, chunk ≠ [] :=
    fun chunk hmem => h chunk (hq ▸ List.mem_cons_of_mem _ hmem)
  intro chunk hmem
  unfold consumed at hmem
  dsimp only at hmem
  split at hmem
  · exact hqueue chunk hmem
  · rename_i hpart
    rcases List.mem_cons.mp hmem with rfl | hmem
    · rw [Ne, List.drop_eq_nil_iff]
      omega
    · exact hqueue chunk hmem

omit [CryptoLib] in
/-- No act but an empty data message adds an empty chunk. -/
theorem Act.chunks (h : Act id x ch k ch' new) (hch : x.channels.get? id = some ch)
    (hfills : ∀ o ∈ new, o.Fills) (hin : ∀ chunk ∈ ch.inQ, chunk ≠ []) :
    ∀ chunk ∈ ch'.inQ, chunk ≠ [] := by
  cases h with
  | consume hq => exact consumed_chunks hq hin
  | @deliver p data hm hw =>
    intro chunk hmem
    rcases List.mem_append.mp hmem with hmem | hmem
    · exact hin chunk hmem
    · obtain rfl := List.mem_singleton.mp hmem
      rintro rfl
      have hhandled : (Obs.handled x p).Fills := hfills _ List.mem_cons_self
      exact hhandled id (by rw [hch]; rfl) hm
  | _ => exact hin

/-- As long as no empty data message for a channel arrives, no chunk is empty:
    `peek_inbound` never shows an empty slice, and the chunks are no more than
    the bytes that the maximum window allows. -/
theorem Setup.Reaches.chunks_filled {setup : Setup} (h : setup.Reaches c)
    (hfills : ∀ o ∈ c.log, o.Fills) (hch : c.now.channels.get? id = some ch) :
    (∀ chunk ∈ ch.inQ, chunk ≠ []) ∧ c.now.peekInbound id ≠ some [] ∧
      ch.inQ.length ≤ ch.recvMax.toNat := by
  have hne : ∀ chunk ∈ ch.inQ, chunk ≠ [] := by
    refine h.slot (G := Obs.Fills) (I := fun c => ∀ ch, c.now.channels.get? id = some ch →
      ∀ chunk ∈ ch.inQ, chunk ≠ []) id ?_ ?_ hfills ch hch
    · intro rng c0 h0 ch hch
      rw [h0.channels] at hch
      cases setup <;> cases hch
    · intro k c c' hI hs hG ch' hch'
      cases hs with
      | idle hget hlog hnew => exact hI ch' (hget ▸ hch')
      | act hch hch1 ha hlog =>
        cases hch1.symm.trans hch'
        refine ha.chunks hch (fun o ho => hG o ?_) (hI _ hch)
        rw [hlog]
        exact List.mem_append_right _ ho
      | enter hch1 hf hlog =>
        cases hch1.symm.trans hch'
        intro chunk hmem
        cases hf <;> cases hmem
      | leave hch hnone hl hlog => cases hnone.symm.trans hch'
  have hin : InOk ch := h.inOk hch
  refine ⟨hne, ?_, ?_⟩
  · rw [peekInbound, hch]
    intro hpeek
    exact hne [] (List.mem_of_mem_head? hpeek) rfl
  · have hlen : ch.inQ.length ≤ (ch.inQ.map List.length).sum := by
      have hpos : ∀ n ∈ ch.inQ.map List.length, 1 ≤ n := by
        intro n hn
        obtain ⟨chunk, hmem, rfl⟩ := List.mem_map.mp hn
        exact List.length_pos_iff.mpr (hne chunk hmem)
      simpa using List.length_le_sum_of_one_le _ hpos
    have hbound := hin.bound
    rw [hin.exact] at hbound
    omega

/-- Not a data message with an empty data field, for whatever channel. -/
def Obs.isFilled : Obs → Bool
  | handled _ p => !(decide (IsMsg .channelData p) || decide (IsMsg .channelExtendedData p))
      || dataField p != []
  | _ => true

omit [CryptoLib] in
theorem Obs.fills_of_isFilled {o : Obs} (hshort : o.Short) (h : o.isFilled = true) : o.Fills := by
  cases o with
  | handled before p =>
    intro id _ hempty
    have hp : p.length < 2 ^ 32 := Nat.lt_of_le_of_lt hshort (by decide)
    have hfield : dataField p = [] := dataField_of_dataMessage hp hempty
    have hmsg : IsMsg .channelData p ∨ IsMsg .channelExtendedData p := by
      rcases hempty with ⟨rest, rfl⟩ | ⟨code, rest, rfl⟩
      · exact .inl rfl
      · exact .inr rfl
    rw [isFilled, hfield] at h
    rcases hmsg with hmsg | hmsg
    · simp [hmsg] at h
    · simp [hmsg] at h
  | _ => trivial

omit [CryptoLib] in
theorem Setup.Reaches.chunks_filled_partialRead : ∃ c ch,
    @Setup.run Toy.lib (.server Toy.server) Toy.rng partialRead = .ok () c ∧
      c.now.channels.get? 0 = some ch ∧ (∀ chunk ∈ ch.inQ, chunk ≠ []) ∧
      c.now.peekInbound 0 ≠ some [] := by
  have hpass : (@Setup.run Toy.lib (.server Toy.server) Toy.rng partialRead).passes (fun c =>
      (c.now.channels.get? 0).isSome && c.log.all Obs.isFilled) = true := by
    decide +kernel
  obtain ⟨_, c, hrun, hc⟩ := Outcome.exists_of_passes hpass
  rw [Bool.and_eq_true, List.all_eq_true] at hc
  obtain ⟨ch, hch⟩ := Option.isSome_iff_exists.mp hc.1
  have hreach : @Setup.Reaches Toy.lib (.server Toy.server) c := @Reaches.of_run Toy.lib _ _ _ c hrun
  have hfills : ∀ o ∈ c.log, o.Fills := fun o ho =>
    Obs.fills_of_isFilled (@Setup.Reaches.short c Toy.lib _ hreach o ho) (hc.2 o ho)
  obtain ⟨hne, hpeek, -⟩ := @Setup.Reaches.chunks_filled 0 ch c Toy.lib _ hreach hfills hch
  exact ⟨c, ch, hrun, hch, hne, hpeek⟩

/-- A data message with nothing in it. -/
def Setup.emptyData : List Call :=
  [.recv (Setup.plainPeer 1000 1000 ++ Toy.clearPacket (Msg.channelData 0 [])), .processIn]

omit [CryptoLib] in
/-- It becomes an empty chunk, which `peek_inbound` shows. -/
theorem Setup.emptyData_run : ∃ c ch,
    @Setup.run Toy.lib (.server Toy.server) Toy.rng emptyData = .ok () c ∧
      c.now.channels.get? 0 = some ch ∧ ch.inQ = [[]] ∧ c.now.peekInbound 0 = some [] := by
  have hpass : (@Setup.run Toy.lib (.server Toy.server) Toy.rng emptyData).passes (fun c =>
      (c.now.channels.get? 0).any fun ch => decide (ch.inQ = [[]])) = true := by
    decide +kernel
  obtain ⟨_, c, hrun, hc⟩ := Outcome.exists_of_passes hpass
  rw [Option.any_eq_true] at hc
  obtain ⟨ch, hch, hq⟩ := hc
  replace hq := of_decide_eq_true hq
  refine ⟨c, ch, hrun, hch, hq, ?_⟩
  rw [peekInbound, hch, Option.bind_some, hq]
  rfl

end Ssproxy
