/-
  Ssproxy.Lives

  The life of a channel slot, from the opening of a channel in it to the next.
  The packets of the stream that are queued during one life are data, then at
  most one EOF, then at most one CLOSE.
-/

import Ssproxy.Lib.History
import Ssproxy.Machine.Slots
import Ssproxy.Gate

namespace Ssproxy

open Lib Wire Connection Relation

-- ============================================================================
-- The packets of a stream
-- ============================================================================

/-- The packets of a channel's stream. -/
inductive StreamPacket where
  | data | eof | close
  deriving DecidableEq, Repr

namespace StreamPacket

def msgType : StreamPacket → MsgType
  | data => .channelData
  | eof => .channelEof
  | close => .channelClose

/-- The kind of `payload`, if it belongs to a stream. -/
def ofPayload (payload : Bytes) : Option StreamPacket :=
  [data, eof, close].find? fun k => IsMsg k.msgType payload

/-- `DATA* EOF? CLOSE?`. -/
def Grammar (l : List StreamPacket) : Prop :=
  ∃ n e k, l = List.replicate n data ++ List.replicate e eof ++ List.replicate k close
    ∧ e ≤ 1 ∧ k ≤ 1

end StreamPacket

/-- What was queued for the stream of channel `id`. -/
def Obs.streamPacket (id : UInt32) : Obs → Option StreamPacket
  | queued _ owner p _ => if owner = some id then StreamPacket.ofPayload p else none
  | _ => none

/-- Slot `id` was filled. -/
def Obs.opens (id : UInt32) : Obs → Bool
  | opened j => j = id
  | _ => false

/-- The packets queued in the current life of slot `id`. -/
def lifeOf (id : UInt32) (log : List Obs) : List StreamPacket :=
  (since (Obs.opens id) log).filterMap (Obs.streamPacket id)

section Packets

open StreamPacket

variable {id : UInt32} {l new : List Obs} {o : Obs} {q q' : List StreamPacket}

theorem Obs.eq_of_opens (h : o.opens id = true) : o = .opened id := by
  cases o with
  | opened j => rw [of_decide_eq_true h]
  | _ => cases h

theorem lifeOf_append (h : ∀ o ∈ new, o.opens id = false) :
    lifeOf id (l ++ new) = lifeOf id l ++ new.filterMap (Obs.streamPacket id) := by
  rw [lifeOf, since_append h, List.filterMap_append, lifeOf]

theorem lifeOf_opened : lifeOf id (l ++ [.opened id]) = [] := by
  rw [lifeOf, since_concat_of_pos (by simp [Obs.opens])]
  rfl

/-- The observation neither opens slot `id` nor sends a packet of its stream. -/
def Obs.Mute (id : UInt32) (o : Obs) : Prop := o.opens id = false ∧ o.streamPacket id = none

theorem Obs.Off.mute (h : o.Off id) : o.Mute id := by
  cases o <;> simp_all [Obs.Off, Obs.Mute, Obs.opens, Obs.streamPacket]

/-- A message that is no packet of a stream. -/
theorem mute_queued {b : Connection} {owner : Option UInt32} {p w : Bytes}
    (h : ofPayload p = none) : (Obs.queued b owner p w).Mute id := by
  refine ⟨rfl, ?_⟩
  rw [Obs.streamPacket, h, ite_self]

theorem lifeOf_mute (h : ∀ o ∈ new, o.Mute id) : lifeOf id (l ++ new) = lifeOf id l := by
  have hnil : new.filterMap (Obs.streamPacket id) = [] := by
    rw [List.filterMap_eq_nil_iff]
    exact fun o ho => (h o ho).2
  rw [lifeOf_append fun o ho => (h o ho).1, hnil, List.append_nil]

namespace StreamPacket

/-- Where a stream stands: only data so far, at most an EOF after it, or ended. -/
inductive Phase : Bool → Bool → List StreamPacket → Prop where
  | data (n : Nat) : Phase false false (List.replicate n .data)
  | eof (n : Nat) {e : Nat} (he : e ≤ 1) :
      Phase true false (List.replicate n .data ++ List.replicate e .eof)
  | close {q : List StreamPacket} (h : Grammar q) : Phase true true q

theorem Phase.grammar {wireEof wireClose : Bool} (h : Phase wireEof wireClose q) : Grammar q := by
  cases h with
  | data n => exact ⟨n, 0, 0, by simp⟩
  | eof n he => exact ⟨n, _, 0, by simp, he, Nat.zero_le _⟩
  | close h => exact h

theorem Phase.sends (h : Phase false false q) : Phase false false (q ++ [.data]) := by
  cases h with
  | data n =>
    rw [← List.replicate_succ']
    exact .data (n + 1)

theorem Phase.ends (h : Phase false false q) : Phase true false (q ++ [.eof]) := by
  cases h with
  | data n => exact .eof n (e := 1) (Nat.le_refl _)

theorem Phase.mutes (h : Phase false false q) : Phase true false q := by
  cases h with
  | data n =>
    have hmute : Phase true false _ := .eof n (e := 0) (Nat.zero_le _)
    simpa using hmute

theorem Phase.closes {wireEof : Bool} (h : Phase wireEof false q) :
    Phase true true (q ++ [.close]) := by
  refine .close ?_
  cases h with
  | data n => exact ⟨n, 0, 1, by simp⟩
  | @eof n e he => exact ⟨n, e, 1, by simp, he, Nat.le_refl _⟩

theorem Phase.hides {wireEof : Bool} (h : Phase wireEof false q) : Phase true true q :=
  .close h.grammar

/-- An initial part of a well-formed stream is well formed. -/
theorem Grammar.of_prefix (h : Grammar q') (hpre : q <+: q') : Grammar q := by
  obtain ⟨n, e, k, rfl, he, hk⟩ := h
  rw [List.prefix_iff_eq_take] at hpre
  refine ⟨min q.length n, min (q.length - n) e, min (q.length - n - e) k, ?_, by omega, by omega⟩
  conv_lhs => rw [hpre]
  simp only [List.append_assoc, List.take_append, List.take_replicate, List.length_replicate]

end StreamPacket

end Packets

variable {id : UInt32} {x : Connection} {k : Cause} {ch ch' : Channel}
  {new : List Obs} {q : List StreamPacket} {c c' : Conn}

-- ============================================================================
-- What an act adds to a stream
-- ============================================================================

open StreamPacket

/-- The order of the flags of a channel: what is on the wire was asked for, and
    a CLOSE includes the EOF. -/
structure EndFlags (ch : Channel) : Prop where
  asked : ch.sentClose = true → ch.sentEof = true
  eof : ch.wireEof = true → ch.sentEof = true
  close : ch.wireClose = true → ch.wireEof = true

/-- Before the end was asked for nothing of it is on the wire. -/
theorem EndFlags.silent (h : EndFlags ch) (he : ch.sentEof = false) :
    ch.wireEof = false ∧ ch.wireClose = false := by
  have heof : ch.wireEof = false := by
    by_contra hw
    rw [h.eof (by simpa using hw)] at he
    cases he
  refine ⟨heof, ?_⟩
  by_contra hw
  rw [h.close (by simpa using hw)] at heof
  cases heof

/-- A channel with an allowance has not asked for its end. -/
theorem sentEof_of_allowance {n : Nat} (hpos : 0 < n) (h : n ≤ ch.outboundAllowance) :
    ch.sentEof = false := by
  unfold Channel.outboundAllowance at h
  cases he : ch.sentEof with
  | false => rfl
  | true =>
    rw [he] at h
    simp at h
    omega

theorem Fresh.endFlags (h : Fresh id x k ch new) : EndFlags ch := by
  cases h with
  | peer hm hev => exact ⟨nofun, nofun, nofun⟩
  | here hrole hnew => exact ⟨nofun, nofun, nofun⟩

theorem Act.endFlags (h : Act id x ch k ch' new) (hf : EndFlags ch) : EndFlags ch' := by
  cases h with
  | askEof he hc => exact ⟨fun _ => rfl, fun _ => rfl, hf.close⟩
  | askClose hgate hc => exact ⟨fun _ => rfl, fun _ => rfl, hf.close⟩
  | closeAgain hc hw => exact ⟨fun _ => rfl, fun _ => rfl, hf.close⟩
  | closeSilent hgate hc hw hr => exact ⟨fun _ => rfl, fun _ => rfl, fun _ => rfl⟩
  | closeNow hgate hc hw hr => exact ⟨fun _ => rfl, fun _ => rfl, fun _ => rfl⟩
  | emitEofSilent hgate he hw hr => exact ⟨hf.asked, fun _ => he, fun _ => rfl⟩
  | emitEof hgate he hw hr => exact ⟨hf.asked, fun _ => he, fun _ => rfl⟩
  | emitCloseSilent hgate hc hw hr => exact ⟨hf.asked, fun _ => hf.asked hc, fun _ => rfl⟩
  | emitClose hgate hc hw hr => exact ⟨hf.asked, fun _ => hf.asked hc, fun _ => rfl⟩
  | _ => exact ⟨hf.asked, hf.eof, hf.close⟩

/-- A message queued for the channel itself. -/
theorem stream_queued {b : Connection} {p w : Bytes} :
    [Obs.queued b (some id) p w].filterMap (Obs.streamPacket id) = (ofPayload p).toList := by
  rw [List.filterMap_cons, Obs.streamPacket, if_pos rfl]
  cases ofPayload p <;> rfl

/-- An act opens no channel. -/
theorem Act.opens (h : Act id x ch k ch' new) : ∀ o ∈ new, o.opens id = false := by
  cases h with
  | _ => simp [Obs.opens]

/-- The phase of the stream and the flags of its channel go on together. -/
theorem Act.phase (h : Act id x ch k ch' new) (hf : EndFlags ch)
    (hq : Phase ch.wireEof ch.wireClose q) :
    Phase ch'.wireEof ch'.wireClose (q ++ new.filterMap (Obs.streamPacket id)) := by
  -- acts that neither send nor end anything
  have hsame : Phase ch.wireEof ch.wireClose (q ++ []) := by rwa [List.append_nil]
  cases h with
  | wire hne hallow hgate hr =>
    obtain ⟨he, hc⟩ := hf.silent (sentEof_of_allowance (List.length_pos_iff.mpr hne) hallow)
    rw [stream_queued]
    rw [he, hc] at hq
    dsimp only
    rw [he, hc]
    exact hq.sends
  | flush hcan hp hne =>
    obtain ⟨he, hc⟩ := hf.silent hcan.live
    rw [stream_queued]
    rw [he, hc] at hq
    dsimp only [flushed]
    rw [he, hc]
    exact hq.sends
  | emitEof hgate he hw hr =>
    have hc : ch.wireClose = false := by
      by_contra hc
      rw [hf.close (by simpa using hc)] at hw
      cases hw
    rw [stream_queued]
    rw [hw, hc] at hq
    dsimp only
    rw [hc]
    exact hq.ends
  | emitEofSilent hgate he hw hr =>
    have hc : ch.wireClose = false := by
      by_contra hc
      rw [hf.close (by simpa using hc)] at hw
      cases hw
    rw [hw, hc] at hq
    dsimp only
    rw [hc, List.filterMap_nil, List.append_nil]
    exact hq.mutes
  | closeNow hgate hc hw hr =>
    rw [List.filterMap_cons_none rfl, stream_queued]
    rw [hw] at hq
    exact hq.closes
  | emitClose hgate hc hw hr =>
    rw [stream_queued]
    rw [hw] at hq
    exact hq.closes
  | closeSilent hgate hc hw hr =>
    rw [hw] at hsame
    exact hsame.hides
  | emitCloseSilent hgate hc hw hr =>
    rw [hw] at hsame
    exact hsame.hides
  | grant hgate hadd hpos hr =>
    rw [stream_queued]
    exact hsame
  | confirm hr =>
    rw [stream_queued]
    exact hsame
  | reply hm hwant hr ht hb =>
    rw [List.filterMap_cons_none rfl, stream_queued]
    rcases ht with rfl | rfl
    · exact hsame
    · exact hsame
  | _ => exact hsame

-- ============================================================================
-- Every life is well formed
-- ============================================================================

/-- Every life of slot `id` has been well formed at every moment. -/
def LivesOk (id : UInt32) (l : List Obs) : Prop := AllAlong (fun l => Grammar (lifeOf id l)) l

/-- Within a life it is enough to look at its end. -/
theorem LivesOk.append {l : List Obs} (h : LivesOk id l) (hopens : ∀ o ∈ new, o.opens id = false)
    (hend : Grammar (lifeOf id (l ++ new))) : LivesOk id (l ++ new) := by
  refine AllAlong.append h fun new' hpre => hend.of_prefix ?_
  rw [lifeOf_append hopens, lifeOf_append fun o ho => hopens o (hpre.subset ho)]
  obtain ⟨rest, rfl⟩ := hpre
  rw [List.filterMap_append, ← List.append_assoc]
  exact List.prefix_append _ _

theorem LivesOk.mute {l : List Obs} (h : LivesOk id l) (hnew : ∀ o ∈ new, o.Mute id) :
    LivesOk id (l ++ new) := by
  refine h.append (fun o ho => (hnew o ho).1) ?_
  rw [lifeOf_mute hnew]
  exact h l List.prefix_rfl

/-- A life begins with nothing on the wire. -/
theorem LivesOk.opened {l : List Obs} (h : LivesOk id l) : LivesOk id (l ++ [.opened id]) := by
  refine AllAlong.concat h ?_
  rw [lifeOf_opened]
  exact ⟨0, 0, 0, rfl, Nat.zero_le _, Nat.zero_le _⟩

/-- The history of a channel that is put into its slot. -/
theorem Fresh.split (h : Fresh id x k ch new) : ch.wireEof = false ∧ ch.wireClose = false ∧
    ∃ before after, new = before ++ [.opened id] ++ after ∧ (∀ o ∈ before, o.Mute id) ∧
      ∀ o ∈ after, o.Mute id := by
  cases h with
  | peer hm hev =>
    refine ⟨rfl, rfl, [_], [_], rfl, fun o ho => ?_, fun o ho => ?_⟩
    · rw [List.mem_singleton.mp ho]
      exact ⟨rfl, rfl⟩
    · rw [List.mem_singleton.mp ho]
      exact ⟨rfl, rfl⟩
  | here hrole hnew =>
    refine ⟨rfl, rfl, [], _, rfl, fun _ ho => absurd ho List.not_mem_nil, fun o ho => ?_⟩
    obtain ⟨b, w, rfl⟩ := hnew o ho
    exact mute_queued rfl

theorem Leaves.mute (h : Leaves id x ch k new) : ∀ o ∈ new, o.Mute id := by
  cases h with
  | closed hg hw => simp [Obs.Mute, Obs.opens, Obs.streamPacket]
  | failed hr hnew =>
    intro o ho
    rcases List.mem_cons.mp ho with rfl | ho
    · exact ⟨rfl, rfl⟩
    · obtain ⟨b, w, rfl⟩ := hnew o ho
      exact mute_queued rfl
  | refused hm => simp [Obs.Mute, Obs.opens, Obs.streamPacket]

/-- The lives of slot `id` are well formed, and the current one stands where the
    flags of its channel say. -/
structure LifeOk (id : UInt32) (c : Conn) : Prop where
  lives : LivesOk id c.log
  flags : ∀ ch, c.now.channels.get? id = some ch → EndFlags ch
  phase : ∀ ch, c.now.channels.get? id = some ch →
    Phase ch.wireEof ch.wireClose (lifeOf id c.log)

theorem LifeOk.step (h : LifeOk id c) (hs : SlotStep id k c c') : LifeOk id c' := by
  cases hs with
  | idle hget hlog hnew =>
    have hmute := fun o ho => (hnew o ho).mute
    refine ⟨?_, fun ch hch => h.flags ch (hget ▸ hch), fun ch hch => ?_⟩
    · rw [hlog]
      exact h.lives.mute hmute
    · rw [hlog, lifeOf_mute hmute]
      exact h.phase ch (hget ▸ hch)
  | act hch hch' ha hlog =>
    have hphase := ha.phase (h.flags _ hch) (h.phase _ hch)
    rw [← lifeOf_append ha.opens, ← hlog] at hphase
    refine ⟨?_, fun ch1 hch1 => ?_, fun ch1 hch1 => ?_⟩
    · rw [hlog] at hphase ⊢
      exact h.lives.append ha.opens hphase.grammar
    · cases hch'.symm.trans hch1
      exact ha.endFlags (h.flags _ hch)
    · cases hch'.symm.trans hch1
      exact hphase
  | enter hch' hf hlog =>
    obtain ⟨heof, hclose, before, after, rfl, hbefore, hafter⟩ := hf.split
    rw [← List.append_assoc, ← List.append_assoc] at hlog
    refine ⟨?_, fun ch1 hch1 => ?_, fun ch1 hch1 => ?_⟩
    · rw [hlog]
      exact (h.lives.mute hbefore).opened.mute hafter
    · cases hch'.symm.trans hch1
      exact hf.endFlags
    · cases hch'.symm.trans hch1
      rw [hlog, lifeOf_mute hafter, lifeOf_opened, heof, hclose]
      exact .data 0
  | leave hch hnone hl hlog =>
    refine ⟨?_, fun ch1 hch1 => ?_, fun ch1 hch1 => ?_⟩
    · rw [hlog]
      exact h.lives.mute hl.mute
    · cases hnone.symm.trans hch1
    · cases hnone.symm.trans hch1

/-- The packets of a stream are queued on behalf of a channel. -/
theorem Emits.owned {b : Connection} {owner : Option UInt32} {p : Bytes} (h : Emits b k owner p)
    (hp : ofPayload p ≠ none) : ∃ id, owner = some id := by
  cases h with
  | kexinit hk hm =>
    obtain ⟨r, rfl⟩ : ∃ r, p = MsgType.kexinit.code :: r := List.head?_eq_some_iff.mp hm
    exact absurd rfl hp
  | disconnect => exact absurd rfl hp
  | adjust | data | eof | close | confirm | failure | opening => exact ⟨_, rfl⟩

/-- What belongs to a stream is held back by the gate. -/
theorem isApp_of_ofPayload {p : Bytes} (h : ofPayload p ≠ none) : IsApp p := by
  obtain ⟨s, hs⟩ := Option.ne_none_iff_exists'.mp h
  have hm : IsMsg s.msgType p := by
    have hfound := List.find?_some hs
    simpa using hfound
  cases s with
  | data => exact ⟨_, by decide, hm⟩
  | eof => exact ⟨_, by decide, hm⟩
  | close => exact ⟨_, by decide, hm⟩

variable [CryptoLib]

namespace Setup

/-- Every packet of a stream is queued on behalf of a channel. -/
theorem Reaches.owned {setup : Setup} (h : setup.Reaches c) {b : Connection}
    {owner : Option UInt32} {p w : Bytes} (hmem : Obs.queued b owner p w ∈ c.log)
    (hp : ofPayload p ≠ none) : ∃ id, owner = some id := by
  obtain ⟨rng, c0, hstart, hmoves⟩ := h
  refine Moves.invariant (G := fun _ => True) (I := fun c => ∀ b owner p w,
    Obs.queued b owner p w ∈ c.log → ofPayload p ≠ none → ∃ id, owner = some id)
    ?_ hmoves (setup.starts_wellFormed hstart) ?_ (fun _ _ => trivial) b owner p w hmem hp
  · intro c c' hwf hI hm _ b owner p w hmem hp
    rcases hm.adds b owner p w hmem with hold | hnew
    · exact hI b owner p w hold hp
    cases hnew with
    | step hs => exact hs.2.owned hp
    | reply hhandled hr => exact absurd (isApp_of_ofPayload hp) hr.not_app
  · intro b owner p w hmem hp
    have hstarts : Adds (fun b owner p => IsMsg .kexinit p) [] c0.log :=
      hstart.adds fun b p _ hm => hm
    rcases hstarts b owner p w hmem with hold | hm
    · cases hold
    obtain ⟨r, rfl⟩ : ∃ r, p = MsgType.kexinit.code :: r := List.head?_eq_some_iff.mp hm
    exact absurd rfl hp

/-- In every run, whatever the peer and the application do, every packet of a
    stream is queued on behalf of a channel, and those queued during one life of
    a slot are `DATA* EOF? CLOSE?`. -/
theorem Reaches.streamGrammar {setup : Setup} (h : setup.Reaches c) :
    (∀ b owner p w, Obs.queued b owner p w ∈ c.log → ofPayload p ≠ none →
      ∃ id, owner = some id) ∧
    ∀ id before life after, c.log = before ++ .opened id :: (life ++ after) →
      (∀ o ∈ life, o.opens id = false) → Grammar (life.filterMap (Obs.streamPacket id)) := by
  refine ⟨fun b owner p w hmem hp => h.owned hmem hp, ?_⟩
  · intro id before life after hlog hlife
    have hok : LifeOk id c := by
      refine h.slot (G := fun _ => True) id ?_ (fun k c c' hI hs _ => hI.step hs) fun _ _ => trivial
      intro rng c0 h0
      have hskirts : Skirts id ⟨setup.blank rng, []⟩ c0 := h0.skirts
      obtain ⟨new, hnew, hoff⟩ := hskirts.log
      have hnone : c0.now.channels.get? id = none := by
        rw [hskirts.get]
        cases setup <;> rfl
      refine ⟨?_, fun ch hch => ?_, fun ch hch => ?_⟩
      · rw [hnew]
        refine LivesOk.mute (AllAlong.nil ?_) fun o ho => (hoff o ho).mute
        exact ⟨0, 0, 0, rfl, Nat.zero_le _, Nat.zero_le _⟩
      · cases hnone.symm.trans hch
      · cases hnone.symm.trans hch
    have hgrammar : Grammar (lifeOf id (before ++ .opened id :: life)) := by
      refine hok.lives _ ⟨after, ?_⟩
      rw [hlog]
      simp
    rwa [lifeOf, since_segment (by simp [Obs.opens]) hlife] at hgrammar

/-- A peer that logs in and opens a channel before any key exchange. -/
def plainPeer (w m : UInt32) : Bytes :=
  Toy.identLine ++ Toy.clearPacket Msg.userauthSuccess
    ++ Toy.clearPacket (MsgType.channelOpen.code ::
      (putStr "session" ++ putU32 5 ++ putU32 w ++ putU32 m))

/-- A byte, the end of the stream, and the end of the channel. -/
def wholeLife : List Call :=
  [.recv (plainPeer 1000 1000), .processIn, .confirmOpen 0, .sendData 0 [97], .sendEof 0,
    .sendClose 0]

omit [CryptoLib] in
theorem Reaches.streamGrammar_wholeLife : ∃ c,
    @Setup.run Toy.lib (.server Toy.server) Toy.rng wholeLife = .ok () c ∧
      lifeOf 0 c.log = [.data, .eof, .close] ∧
      ∃ before life, c.log = before ++ .opened 0 :: life ∧
        Grammar (life.filterMap (Obs.streamPacket 0)) := by
  have hpass : (@Setup.run Toy.lib (.server Toy.server) Toy.rng wholeLife).passes (fun c =>
      decide (lifeOf 0 c.log = [.data, .eof, .close]) &&
        c.log.any (Obs.opens 0)) = true := by
    decide +kernel
  obtain ⟨_, c, hrun, hc⟩ := Outcome.exists_of_passes hpass
  rw [Bool.and_eq_true, decide_eq_true_iff] at hc
  obtain ⟨before, o, hlog, ho, hlife⟩ := exists_since hc.2
  obtain rfl := Obs.eq_of_opens ho
  refine ⟨c, hrun, hc.1, before, _, hlog, ?_⟩
  refine (@Reaches.streamGrammar c Toy.lib _ (@Reaches.of_run Toy.lib _ _ _ c hrun)).2 0 before _ []
    ?_ hlife
  rw [List.append_nil]
  exact hlog

end Setup

end Ssproxy
