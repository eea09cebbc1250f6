/-
  Ssproxy.Opens

  Who decides on an open.  Only the application does, unless the peer answers
  an open that it has made itself: the handlers of its two answers do not ask
  who has opened the channel.
-/

import Ssproxy.Inflow

namespace Ssproxy

open Lib Wire Connection Relation

variable {id : UInt32} {x b : Connection} {k : Cause} {ch ch' : Channel} {new l : List Obs}
  {c c' c1 c2 : Conn}

-- ============================================================================
-- The answers of the peer
-- ============================================================================

/-- The packet decides on the open of channel `id` in the application's place:
    it confirms the channel for the first time or under another name, or fails
    it. -/
def Verdict (id : UInt32) (ch : Channel) (p : Bytes) : Prop :=
  (∃ remote w m, MsgType.channelOpenConfirmation.code ::
      (putU32 id ++ putU32 remote ++ putU32 w ++ putU32 m) <+: p ∧
      (ch.openConfirmed = false ∨ ch.remoteId ≠ some remote))
    ∨ ∃ reason, MsgType.channelOpenFailure.code :: (putU32 id ++ putU32 reason) <+: p

/-- Not such a packet for a channel that is there. -/
def Obs.NoVerdict : Obs → Prop
  | handled before p => ∀ id ch, before.channels.get? id = some ch → ¬Verdict id ch p
  | _ => True

/-- A confirmation that is no verdict repeats what is known. -/
theorem NoVerdict.repeats {p : Bytes} {remote w m : UInt32} (h : (Obs.handled x p).NoVerdict)
    (hch : x.channels.get? id = some ch)
    (hm : MsgType.channelOpenConfirmation.code ::
      (putU32 id ++ putU32 remote ++ putU32 w ++ putU32 m) <+: p) :
    ch.openConfirmed = true ∧ ch.remoteId = some remote := by
  have hnot := h id ch hch
  refine ⟨?_, ?_⟩
  · by_contra hno
    exact hnot (.inl ⟨remote, w, m, hm, .inl (by simpa using hno)⟩)
  · by_contra hother
    exact hnot (.inl ⟨remote, w, m, hm, .inr hother⟩)

-- ============================================================================
-- Both CLOSE messages
-- ============================================================================

/-- The peer closed channel `id`. -/
def GotClose (id : UInt32) (l : List Obs) : Prop :=
  ∃ b p, Obs.handled b p ∈ l ∧ Msg.channelClose id <+: p

/-- So did the connection. -/
def WireClose (id : UInt32) (l : List Obs) : Prop :=
  ∃ b r w, Obs.queued b (some id) (Msg.channelClose r) w ∈ l

/-- What is said in a channel's flags was said in its life. -/
structure Closing (id : UInt32) (ch : Channel) (life : List Obs) : Prop where
  remote : ch.remoteId.isSome = true
  got : ch.gotClose = true → GotClose id life
  wire : ch.wireClose = true → WireClose id life

theorem Closing.append (h : Closing id ch l) (new : List Obs) : Closing id ch (l ++ new) := by
  refine ⟨h.remote, fun hg => ?_, fun hw => ?_⟩
  · obtain ⟨b, p, hmem, hp⟩ := h.got hg
    exact ⟨b, p, List.mem_append_left _ hmem, hp⟩
  · obtain ⟨b, r, w, hmem⟩ := h.wire hw
    exact ⟨b, r, w, List.mem_append_left _ hmem⟩

/-- An act that sets a flag says so. -/
theorem Act.closing (h : Act id x ch k ch' new) (hc : Closing id ch l) :
    Closing id ch' (l ++ new) := by
  have hold := hc.append new
  -- a CLOSE that goes out
  have hsent : ∀ {b : Connection} {r : UInt32} {w : Bytes},
      Obs.queued b (some id) (Msg.channelClose r) w ∈ new → WireClose id (l ++ new) :=
    fun hmem => ⟨_, _, _, List.mem_append_right _ hmem⟩
  cases h with
  | closeNow hgate hc hw hr =>
    exact ⟨hold.remote, hold.got, fun _ => hsent (List.mem_cons_of_mem _ List.mem_cons_self)⟩
  | emitClose hgate hc hw hr => exact ⟨hold.remote, hold.got, fun _ => hsent List.mem_cons_self⟩
  | closeSilent hgate hclose hw hr =>
    have hremote := hc.remote
    rw [hr] at hremote
    cases hremote
  | emitCloseSilent hgate hclose hw hr =>
    have hremote := hc.remote
    rw [hr] at hremote
    cases hremote
  | peerConfirm hm => exact ⟨rfl, hold.got, hold.wire⟩
  | peerClose hm =>
    exact ⟨hold.remote, fun _ => ⟨_, _, List.mem_append_right _ List.mem_cons_self, hm⟩,
      hold.wire⟩
  | _ => exact ⟨hold.remote, hold.got, hold.wire⟩

-- ============================================================================
-- During one call
-- ============================================================================

/-- What has become of slot `id` since `start` in the course of `call`. -/
structure Decided (id : UInt32) (call : Call) (start c : Conn) : Prop where
  log : start.log <+: c.log
  closing : ∀ ch, c.now.channels.get? id = some ch → Closing id ch (since (Obs.opens id) c.log)
  confirmed : ∀ ch, c.now.channels.get? id = some ch → ch.openConfirmed = true →
    call = .confirmOpen id ∨ (openings id c.log = openings id start.log ∧
      ∃ ch0, start.now.channels.get? id = some ch0 ∧ ch0.openConfirmed = true)
  freed : ∀ pre post, c.log = pre ++ .freed id :: post → start.log <+: pre →
    (∃ reason msg, call = .failOpen id reason msg) ∨
      GotClose id (since (Obs.opens id) pre) ∧ WireClose id (since (Obs.opens id) pre)

theorem Act.frees (h : Act id x ch k ch' new) : Obs.freed id ∉ new := by
  cases h with
  | _ => simp

theorem Act.confirms (h : Act id x ch k ch' new) (hch : x.channels.get? id = some ch)
    (hk : k ≠ .call (.confirmOpen id)) (hG : ∀ o ∈ new, o.NoVerdict) :
    ch'.openConfirmed = ch.openConfirmed := by
  cases h with
  | confirmSilent hr => exact absurd rfl hk
  | confirm hr => exact absurd rfl hk
  | peerConfirm hm => exact (NoVerdict.repeats (hG _ List.mem_cons_self) hch hm).1.symm
  | _ => rfl

/-- One step of the slot, taken by the connection itself or for that call. -/
theorem Decided.step {call : Call} {start : Conn} (h : Decided id call start c)
    (hs : SlotStep id k c c') (hk : k.Inner ∨ k = .call call)
    (hlocal : ∀ host port, call ≠ .openDirectTcpip host port) (hG : ∀ o ∈ c'.log, o.NoVerdict) :
    Decided id call start c' := by
  have hlog : start.log <+: c'.log := h.log.trans hs.log
  -- a CLOSE of the slot is an old one, or one of the new observations
  have hfreed : ∀ {new : List Obs}, c'.log = c.log ++ new →
      (∀ mid post, new = mid ++ .freed id :: post →
        (∃ reason msg, call = .failOpen id reason msg) ∨
          GotClose id (since (Obs.opens id) (c.log ++ mid)) ∧
            WireClose id (since (Obs.opens id) (c.log ++ mid))) →
      ∀ pre post, c'.log = pre ++ .freed id :: post → start.log <+: pre →
        (∃ reason msg, call = .failOpen id reason msg) ∨
          GotClose id (since (Obs.opens id) pre) ∧ WireClose id (since (Obs.opens id) pre) := by
    intro new hl hnew pre post hpre hstart
    rcases split_append (hl.symm.trans hpre) with ⟨post', hold⟩ | ⟨mid, rfl, hmid⟩
    · exact h.freed pre post' hold hstart
    · exact hnew mid post hmid
  have hnone : ∀ {new : List Obs}, c'.log = c.log ++ new → Obs.freed id ∉ new →
      ∀ pre post, c'.log = pre ++ .freed id :: post → start.log <+: pre →
        (∃ reason msg, call = .failOpen id reason msg) ∨
          GotClose id (since (Obs.opens id) pre) ∧ WireClose id (since (Obs.opens id) pre) := by
    intro new hl hnot
    refine hfreed hl fun mid post hmid => absurd ?_ hnot
    rw [hmid]
    exact List.mem_append_right _ List.mem_cons_self
  cases hs with
  | @idle new hget hl hnew =>
    have hopens : ∀ o ∈ new, o.opens id = false := fun o ho => (hnew o ho).mute.1
    refine ⟨hlog, fun ch hch => ?_, fun ch hch hyes => ?_, hnone hl fun hmem => hnew _ hmem rfl⟩
    · rw [hl, since_append hopens]
      exact (h.closing ch (hget ▸ hch)).append new
    · rw [hl, openings_append hopens]
      exact h.confirmed ch (hget ▸ hch) hyes
  | @act ch ch' new hch hch' ha hl =>
    refine ⟨hlog, fun ch1 hch1 => ?_, fun ch1 hch1 hyes => ?_, hnone hl ha.frees⟩
    · cases hch'.symm.trans hch1
      rw [hl, since_append ha.opens]
      exact ha.closing (h.closing ch hch)
    · cases hch'.symm.trans hch1
      by_cases hcall : call = .confirmOpen id
      · exact .inl hcall
      have hother : k ≠ .call (.confirmOpen id) := by
        rintro rfl
        rcases hk with hk | hk
        · exact hk
        · cases hk
          exact hcall rfl
      rw [ha.confirms hch hother fun o ho => hG o (by
        rw [hl]
        exact List.mem_append_right _ ho)] at hyes
      rw [hl, openings_append ha.opens]
      exact h.confirmed ch hch hyes
  | @enter ch' new hch' hf hl =>
    cases hf with
    | @peer p kind typ remote w m port host ev hm hev =>
      refine ⟨hlog, fun ch1 hch1 => ?_, fun ch1 hch1 hyes => ?_, hnone hl (by simp)⟩
      · cases hch'.symm.trans hch1
        exact ⟨rfl, fun hg => (Bool.false_ne_true hg).elim, fun hw => (Bool.false_ne_true hw).elim⟩
      · cases hch'.symm.trans hch1
        exact (Bool.false_ne_true hyes).elim
    | here hrole hnew =>
      rcases hk with hk | hk
      · exact hk.elim
      · cases hk
        exact absurd rfl (hlocal _ _)
  | @leave ch new hch hgone hleave hl =>
    refine ⟨hlog, fun ch1 hch1 => ?_, fun ch1 hch1 => ?_, ?_⟩
    · cases hgone.symm.trans hch1
    · cases hgone.symm.trans hch1
    · cases hleave with
      | closed hg hw =>
        refine hfreed hl fun mid post hmid => .inr ?_
        obtain rfl : mid = [] := by
          cases mid with
          | nil => rfl
          | cons o mid => simp at hmid
        rw [List.append_nil]
        have hclosing := h.closing ch hch
        exact ⟨hclosing.got hg, hclosing.wire hw⟩
      | failed hr hnew =>
        rcases hk with hk | hk
        · exact hk.elim
        · cases hk
          exact hfreed hl fun _ _ _ => .inl ⟨_, _, rfl⟩
      | @refused p reason msg hm =>
        have hnot : (Obs.handled c.now p).NoVerdict := by
          refine hG _ ?_
          rw [hl]
          exact List.mem_append_right _ List.mem_cons_self
        exact absurd (.inr ⟨_, hm⟩) (hnot id ch hch)

-- ============================================================================
-- During a life
-- ============================================================================

/-- The peer's name for the channel of slot `id` is what it was when the slot
    had been filled `n` times. -/
structure SameRemote (id : UInt32) (n : Nat) (r : Option UInt32) (c : Conn) : Prop where
  since : n ≤ openings id c.log
  remote : openings id c.log = n → ∀ ch, c.now.channels.get? id = some ch → ch.remoteId = r

theorem Act.remoteId (h : Act id x ch k ch' new) (hch : x.channels.get? id = some ch)
    (hG : ∀ o ∈ new, o.NoVerdict) : ch'.remoteId = ch.remoteId := by
  cases h with
  | peerConfirm hm => exact (NoVerdict.repeats (hG _ List.mem_cons_self) hch hm).2.symm
  | _ => rfl

theorem SameRemote.step {n : Nat} {r : Option UInt32} (h : SameRemote id n r c)
    (hs : SlotStep id k c c') (hG : ∀ o ∈ c'.log, o.NoVerdict) : SameRemote id n r c' := by
  cases hs with
  | idle hget hl hnew =>
    have hopen : openings id c'.log = openings id c.log := by
      rw [hl]
      exact openings_append fun o ho => (hnew o ho).mute.1
    refine ⟨hopen ▸ h.since, fun hsame ch hch => ?_⟩
    exact h.remote (hopen ▸ hsame) ch (hget ▸ hch)
  | act hch hch' ha hl =>
    have hopen : openings id c'.log = openings id c.log := by
      rw [hl]
      exact openings_append ha.opens
    refine ⟨hopen ▸ h.since, fun hsame ch1 hch1 => ?_⟩
    cases hch'.symm.trans hch1
    rw [ha.remoteId hch fun o ho => hG o (by
      rw [hl]
      exact List.mem_append_right _ ho)]
    exact h.remote (hopen ▸ hsame) _ hch
  | enter hch' hf hl =>
    obtain ⟨-, -, hopen⟩ := hf.delivered c.log
    rw [← hl] at hopen
    have hsince := h.since
    exact ⟨by omega, fun hsame => by omega⟩
  | leave hch hnone hleave hl =>
    have hopen : openings id c'.log = openings id c.log := by
      rw [hl]
      exact openings_append fun o ho => (hleave.mute o ho).1
    refine ⟨hopen ▸ h.since, fun _ ch1 hch1 => ?_⟩
    cases hnone.symm.trans hch1

variable [CryptoLib]

-- ============================================================================
-- Whole runs of a server
-- ============================================================================

/-- A server opens no channels. -/
theorem openDirectTcpip_server {host : String} {port : UInt32} (hrole : c.now.role = .server) :
    ((Call.openDirectTcpip host port).run c).state? = some c := by
  have hrefused : c.now.role ≠ .client ∨ c.now.authed = false := by
    rw [hrole]
    exact .inl (by decide)
  have herr : openDirectTcpip host port c = .err (.protocol "open_direct before ready") c := by
    unfold openDirectTcpip
    rw [Proc.bind_of_ok (Traced.read_apply c), Proc.bind_apply, Proc.failIf_apply, if_pos hrefused]
    rfl
  show ((do let _ ← openDirectTcpip host port : ConnM Unit) c).state? = some c
  rw [Proc.bind_apply, herr]
  rfl

/-- A call of the application to a server, from slot `id`. -/
theorem Decided.call {call : Call} (hrole : c1.now.role = .server) (hwf : WellFormed c1)
    (hclosing : ∀ ch, c1.now.channels.get? id = some ch →
      Closing id ch (since (Obs.opens id) c1.log))
    (hend : (call.run c1).state? = some c2) (hG : ∀ o ∈ c2.log, o.NoVerdict) :
    Decided id call c1 c2 := by
  have hstart : Decided id call c1 c1 := by
    refine ⟨List.prefix_rfl, hclosing, fun ch hch hyes => .inr ⟨rfl, ch, hch, hyes⟩, ?_⟩
    intro pre post hpre hlong
    have hle := hlong.length_le
    rw [hpre, List.length_append, List.length_cons] at hle
    omega
  by_cases hlocal : ∃ host port, call = .openDirectTcpip host port
  · obtain ⟨host, port, rfl⟩ := hlocal
    rw [openDirectTcpip_server hrole] at hend
    cases hend
    exact hstart
  · have hslots : SlotSteps id (fun k => k.Inner ∨ k = .call call) c1 c2 :=
      call.run_slots hwf hend
    refine hslots.invariant (G := Obs.NoVerdict) ?_ hstart hG
    intro k c c' hk hI hs hG
    exact hI.step hs hk (fun host port hc => hlocal ⟨host, port, hc⟩) hG

namespace Setup

/-- As long as no packet of the peer decides on an open, only the application
    does: in every call of every run, `open_confirmed` becomes true only by
    `confirm_open`, and a slot is freed only by `fail_open` or when both sides
    have closed the channel; from one state to any later one `remote_id` is the
    same, as long as no other channel was opened in the slot. -/
theorem run_decided (cfg : ServerConfig) (id : UInt32) :
    (∀ (rng : Rng) (calls : List Call) (call : Call) (c c' : Conn),
      (server cfg).run rng calls = .ok () c →
      (call.run c).state? = some c' → (∀ o ∈ c'.log, o.NoVerdict) →
      (∀ ch', c'.now.channels.get? id = some ch' → ch'.openConfirmed = true →
        call = .confirmOpen id ∨ (openings id c'.log = openings id c.log ∧
          ∃ ch, c.now.channels.get? id = some ch ∧ ch.openConfirmed = true)) ∧
      ∀ pre post, c'.log = pre ++ .freed id :: post → c.log <+: pre →
        (∃ reason msg, call = .failOpen id reason msg) ∨
          GotClose id (since (Obs.opens id) pre) ∧ WireClose id (since (Obs.opens id) pre)) ∧
    ∀ c c' ch ch', (server cfg).Reaches c → Moves c c' → (∀ o ∈ c'.log, o.NoVerdict) →
      openings id c'.log = openings id c.log → c.now.channels.get? id = some ch →
      c'.now.channels.get? id = some ch' → ch'.remoteId = ch.remoteId := by
  refine ⟨?_, ?_⟩
  · intro rng calls call c c' hrun hend hG
    have hmoves : Moves c c' := call.run_moves (Reaches.of_run hrun).wellFormed hend
    have hG1 : ∀ o ∈ c.log, o.NoVerdict := fun o ho => hG o ((Moves.log hmoves).subset ho)
    have hclosing : ∀ ch, c.now.channels.get? id = some ch →
        Closing id ch (since (Obs.opens id) c.log) := by
      refine run_calls (I := fun c => ∀ ch, c.now.channels.get? id = some ch →
        Closing id ch (since (Obs.opens id) c.log)) (G := Obs.NoVerdict) ?_ ?_ hrun hG1
      · intro c0 hstart ch hch
        rw [hstart.channels] at hch
        cases hch
      · intro pre call post c1 c2 hcalls hpre hwf hI hend hG
        exact (Decided.call (Reaches.of_run hpre).role hwf hI hend hG).closing
    have hdecided : Decided id call c c' :=
      .call (Reaches.of_run hrun).role (Reaches.of_run hrun).wellFormed hclosing hend hG
    exact ⟨hdecided.confirmed, hdecided.freed⟩
  · intro c c' ch ch' hr hmoves hG hopen hch hch'
    have hstart : SameRemote id (openings id c.log) ch.remoteId c := by
      refine ⟨Nat.le_refl _, fun _ ch1 hch1 => ?_⟩
      cases hch.symm.trans hch1
      rfl
    have hsame : SameRemote id (openings id c.log) ch.remoteId c' := by
      refine Moves.invariant (G := Obs.NoVerdict) ?_ hmoves hr.wellFormed hstart hG
      intro c1 c2 hwf hI hm hG
      exact (hm.slots hwf.table).invariant (fun k c c' _ hI hs hG => hI.step hs hG) hI hG
    exact hsame.remote hopen ch' hch'

/-- A peer that opens a channel, and the application that confirms it. -/
def confirmOne : List Call := [.recv (plainPeer 1000 1000), .processIn, .confirmOpen 0]

omit [CryptoLib] in
theorem run_decided_confirmOne : ∃ c c' ch ch',
    @Setup.run Toy.lib (.server Toy.server) Toy.rng [.recv (plainPeer 1000 1000), .processIn]
      = .ok () c ∧
    @Setup.run Toy.lib (.server Toy.server) Toy.rng confirmOne = .ok () c' ∧
    c.now.channels.get? 0 = some ch ∧ c'.now.channels.get? 0 = some ch' ∧
    ch'.openConfirmed = true ∧ ch'.remoteId = ch.remoteId := by
  have hpass : (@Setup.run Toy.lib (.server Toy.server) Toy.rng
      [.recv (plainPeer 1000 1000), .processIn]).passes (fun c =>
        (c.now.channels.get? 0).isSome && openings 0 c.log == 1) = true := by
    decide +kernel
  have hpass' : (@Setup.run Toy.lib (.server Toy.server) Toy.rng confirmOne).passes (fun c =>
      ((c.now.channels.get? 0).any (·.openConfirmed) && openings 0 c.log == 1) &&
        c.log.all (Obs.everyHandled fun _ p => !decide (IsMsg .channelOpenConfirmation p)
          && !decide (IsMsg .channelOpenFailure p))) = true := by
    decide +kernel
  obtain ⟨_, c', hrun', hc'⟩ := Outcome.exists_of_passes hpass'
  rw [Bool.and_eq_true, Bool.and_eq_true, List.all_eq_true, Option.any_eq_true] at hc'
  obtain ⟨⟨⟨ch', hch', hconfirmed⟩, hopen'⟩, hhandled⟩ := hc'
  obtain ⟨c, hrun, hend⟩ := @run_snoc Toy.lib (.server Toy.server) Toy.rng
    [.recv (plainPeer 1000 1000), .processIn] (.confirmOpen 0) c' hrun'
  rw [hrun, Outcome.passes, Bool.and_eq_true] at hpass
  obtain ⟨hlive, hopen⟩ := hpass
  obtain ⟨ch, hch⟩ := Option.isSome_iff_exists.mp hlive
  have hG : ∀ o ∈ c'.log, o.NoVerdict := by
    intro o ho
    cases o with
    | handled before p =>
      rintro id ch - (⟨remote, w, m, ⟨rest, rfl⟩, -⟩ | ⟨reason, rest, rfl⟩)
      · cases hhandled _ ho
      · cases hhandled _ ho
    | _ => trivial
  have hreach : @Setup.Reaches Toy.lib (.server Toy.server) c := @Reaches.of_run Toy.lib _ _ _ c hrun
  have hmoves := @Call.run_moves c c' Toy.lib _ (@Reaches.wellFormed Toy.lib _ c hreach) hend
  have hremote := (@run_decided Toy.lib Toy.server 0).2 c c' ch ch' hreach hmoves hG
    ((eq_of_beq hopen').trans (eq_of_beq hopen).symm) hch hch'
  exact ⟨c, c', ch, ch', hrun, hrun', hch, hch', hconfirmed, hremote⟩

/-- A peer that confirms its own open under another name, and one that takes it
    back. -/
def selfConfirmed : List Call :=
  [.recv (plainPeer 1000 1000 ++ Toy.clearPacket (MsgType.channelOpenConfirmation.code ::
    (putU32 0 ++ putU32 6 ++ putU32 1000 ++ putU32 1000))), .processIn]

def selfFailed : List Call :=
  [.recv (plainPeer 1000 1000 ++ Toy.clearPacket (MsgType.channelOpenFailure.code ::
    (putU32 0 ++ putU32 1))), .processIn]

omit [CryptoLib] in
/-- The first is confirmed, with a new remote id; the second loses its slot.  The
    application has made no decision. -/
theorem self_decided : (∃ c ch,
    @Setup.run Toy.lib (.server Toy.server) Toy.rng selfConfirmed = .ok () c ∧
      c.now.channels.get? 0 = some ch ∧ ch.openConfirmed = true ∧ ch.remoteId = some 6 ∧
      openings 0 c.log = 1) ∧
    ∃ c, @Setup.run Toy.lib (.server Toy.server) Toy.rng selfFailed = .ok () c ∧
      Obs.freed 0 ∈ c.log ∧ c.now.channels.get? 0 = none := by
  have hconfirmed : (@Setup.run Toy.lib (.server Toy.server) Toy.rng selfConfirmed).passes
      (fun c => ((c.now.channels.get? 0).any fun ch =>
        decide (ch.openConfirmed = true ∧ ch.remoteId = some 6)) && openings 0 c.log == 1)
      = true := by
    decide +kernel
  have hfailed : (@Setup.run Toy.lib (.server Toy.server) Toy.rng selfFailed).passes (fun c =>
      c.log.any (Obs.frees 0) && (c.now.channels.get? 0).isNone) = true := by
    decide +kernel
  obtain ⟨_, c, hrun, hc⟩ := Outcome.exists_of_passes hconfirmed
  obtain ⟨_, c', hrun', hc'⟩ := Outcome.exists_of_passes hfailed
  rw [Bool.and_eq_true, Option.any_eq_true] at hc
  rw [Bool.and_eq_true, List.any_eq_true] at hc'
  obtain ⟨⟨ch, hch, hdecided⟩, hopen⟩ := hc
  obtain ⟨hyes, hremote⟩ := of_decide_eq_true hdecided
  obtain ⟨⟨o, ho, hfreed⟩, hnone⟩ := hc'
  refine ⟨⟨c, ch, hrun, hch, hyes, hremote, eq_of_beq hopen⟩, c', hrun', ?_,
    Option.isNone_iff_eq_none.mp hnone⟩
  cases o with
  | freed id =>
    rw [of_decide_eq_true hfreed] at ho
    exact ho
  | _ => cases hfreed

end Setup

end Ssproxy
