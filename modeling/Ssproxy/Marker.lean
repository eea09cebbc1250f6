/-
  Ssproxy.Marker

  When strict key exchange is turned on.  Every KEXINIT of the peer may carry
  the marker, and the flag is set whenever one does.  As long as that happens
  before the first NEWKEYS of either side, the flag is settled by the first
  exchange, and every NEWKEYS resets its sequence number or none does.
-/

import Ssproxy.Rounds
import Ssproxy.Stream
import Ssproxy.Strict

namespace Ssproxy

open Lib Wire Connection Relation

-- ============================================================================
-- The markers and the NEWKEYS of a run
-- ============================================================================

/-- A NEWKEYS was sent or received. -/
def Obs.isNewkeys : Obs → Bool
  | queued _ _ p _ | handled _ p => decide (IsMsg .newkeys p)
  | _ => false

/-- `p` is an acceptable KEXINIT that turns strict key exchange on. -/
structure Marks (c : Connection) (p : Bytes) : Prop where
  off : c.strictKex = false
  kexinit : IsMsg .kexinit p
  accepted : ∃ theirs q c2s s2c, KexInit.parseBody p (.new p) = .ok theirs q ∧
    Negotiates theirs c2s s2c ∧ listHas theirs.kex c.strictName = true

/-- A KEXINIT that turns strict key exchange on was received. -/
def Obs.Marks : Obs → Prop
  | handled b p => Ssproxy.Marks b p
  | _ => False

/-- No NEWKEYS came before a KEXINIT that turns strict key exchange on. -/
def MarkedEarly (log : List Obs) : Prop :=
  log.Pairwise fun o o' => o.isNewkeys = true → ¬o'.Marks

/-- No NEWKEYS was added. -/
def Silent (l l' : List Obs) : Prop := ∃ new, l' = l ++ new ∧ ∀ o ∈ new, o.isNewkeys = false

namespace Silent

variable {l l' l'' : List Obs}

theorem refl (l : List Obs) : Silent l l := ⟨[], by simp⟩

theorem trans (h : Silent l l') (h' : Silent l' l'') : Silent l l'' := by
  obtain ⟨new, rfl, hnew⟩ := h
  obtain ⟨new', rfl, hnew'⟩ := h'
  refine ⟨new ++ new', by simp, fun o ho => ?_⟩
  exact (List.mem_append.mp ho).elim (hnew o) (hnew' o)

theorem single {o : Obs} (h : o.isNewkeys = false) : Silent l (l ++ [o]) :=
  ⟨[o], rfl, fun o' ho => by rw [List.mem_singleton.mp ho]; exact h⟩

/-- Neither a packet nor a message of a key exchange was added. -/
theorem of_later (hl : Later l l') (hs : kexSent l' = kexSent l) : Silent l l' := by
  obtain ⟨new, rfl, hnew⟩ := hl
  refine ⟨new, rfl, fun o ho => ?_⟩
  rw [kexSent_append] at hs
  have hnil : kexSent new = [] := List.append_right_eq_self.mp hs
  have hnone := List.filterMap_eq_nil_iff.mp hnil o ho
  cases o with
  | queued b owner p wire =>
    refine decide_eq_false fun hm => ?_
    cases hnone.symm.trans (kexMsg_of_isMsg hm)
  | handled b p => cases hnew _ ho
  | _ => rfl

end Silent

variable [CryptoLib] {c c' c1 c2 : Conn} {p payload : Bytes} {owner : Option UInt32} {k : Cause}

-- ============================================================================
-- What a move does
-- ============================================================================

/-- What a move does to the flag, and to the counter of a NEWKEYS. -/
inductive Paces (c c' : Conn) : Prop where
  | quiet (hs : c'.now.strictKex = c.now.strictKex) (hf : c'.now.firstKexDone = c.now.firstKexDone)
      (hlog : Silent c.log c'.log)
  | marks {p : Bytes} (hm : Marks c.now p) (hf : c'.now.firstKexDone = c.now.firstKexDone)
      (hlog : Silent (c.log ++ [.handled c.now p]) c'.log)
  | received {p : Bytes} (hm : IsMsg .newkeys p) (hs : c'.now.strictKex = c.now.strictKex)
      (hlog : Silent (c.log ++ [.handled c.now p]) c'.log)
      (hseq : c'.now.recvSeq = if c.now.strictKex then 0 else c.now.recvSeq + 1)
  | sent {b : Connection} {owner : Option UInt32} {p wire : Bytes} {l : List Obs}
      (hm : IsMsg .newkeys p) (hs : c'.now.strictKex = c.now.strictKex)
      (hf : c'.now.firstKexDone = c.now.firstKexDone) (hlog : Silent c.log l)
      (hlast : c'.log = l ++ [.queued b owner p wire])
      (hseq : c'.now.sendSeq = if c.now.strictKex then 0 else b.sendSeq + 1)

theorem Receives.newkeys_seq (h : Receives p c c1) (hm : IsMsg .newkeys p) :
    c1.now.recvSeq = if c.now.strictKex then 0 else c.now.recvSeq + 1 := by
  obtain ⟨cipher, rest, total, -, -, rfl⟩ := h.opens
  have hstrict : (c.now.received cipher rest total).strictKex = c.now.strictKex := rfl
  cases hs : c.now.strictKex with
  | true =>
    simp only [resetRecv]
    rw [if_pos ⟨hm, hstrict.trans hs⟩]
    rfl
  | false =>
    simp only [resetRecv]
    rw [if_neg fun h => absurd (hs.symm.trans h.2) Bool.false_ne_true]
    rfl

theorem Receives.silent (h : Receives p c c1) (hm : ¬IsMsg .newkeys p) : Silent c.log c1.log := by
  rw [h.log]
  exact .single (decide_eq_false hm)

theorem Queues.silent (h : Queues owner payload c c') (hm : ¬IsMsg .newkeys payload) :
    Silent c.log c'.log := by
  obtain ⟨wire, hlog⟩ := h.log
  rw [hlog]
  exact .single (decide_eq_false hm)

theorem Starts.silent (h : Starts c c') : Silent c.log c'.log := by
  cases h with
  | mk hq => exact hq.silent fun hm => absurd ((isMsg_ownKexInit _).unique hm) (by decide)

theorem Joins.silent (h : Joins c c') : Silent c.log c'.log := by
  cases h with
  | running hk => exact .refl _
  | started hk hs => exact hs.silent

theorem Starts.flags (h : Starts c c') :
    c'.now.strictKex = c.now.strictKex ∧ c'.now.firstKexDone = c.now.firstKexDone := by
  cases h with
  | mk hq =>
    have hstrict := congrArg (·.conn.strictKex) hq.control
    have hfirst := congrArg (·.conn.firstKexDone) hq.control
    exact ⟨hstrict, hfirst⟩

theorem Joins.flags (h : Joins c c') :
    c'.now.strictKex = c.now.strictKex ∧ c'.now.firstKexDone = c.now.firstKexDone := by
  cases h with
  | running hk => exact ⟨rfl, rfl⟩
  | started hk hs => exact hs.flags

/-- Our NEWKEYS goes out, and then its counter is reset or not. -/
theorem Switches.paces {pk : PendingKeys} (h : Switches pk c2 c')
    (hs : c2.now.strictKex = c.now.strictKex) (hf : c2.now.firstKexDone = c.now.firstKexDone)
    (hlog : Silent c.log c2.log) : Paces c c' := by
  cases h with
  | @mk c3 hpk hq =>
    obtain ⟨wire, hlast⟩ := hq.log
    have hstrict : c3.now.strictKex = c.now.strictKex :=
      (congrArg (·.conn.strictKex) hq.control).trans hs
    have hfirst : c3.now.firstKexDone = c.now.firstKexDone :=
      (congrArg (·.conn.firstKexDone) hq.control).trans hf
    have hseq : c3.now.sendSeq = c2.now.sendSeq + 1 := by
      cases hq
      rfl
    refine .sent (p := Msg.newkeys) rfl hstrict hfirst hlog hlast ?_
    show (if c3.now.strictKex then 0 else c3.now.sendSeq) = _
    rw [hstrict, hseq]

/-- The peer's KEXINIT is recorded: it turned the flag on, or the flag is as before. -/
theorem paces_recorded {theirs : KexInit} {q : Parser} {c2s s2c : String}
    (hr : Receives p c c1) (hm : IsMsg .kexinit p) (hp : KexInit.parseBody p (.new p) = .ok theirs q)
    (hj : Joins c1 c2) (hn : Negotiates theirs c2s s2c)
    (hs : c'.now.strictKex = (c2.now.strictKex || listHas theirs.kex c2.now.strictName))
    (hf : c'.now.firstKexDone = c2.now.firstKexDone) (hlog : Silent c2.log c'.log) : Paces c c' := by
  have hlog' : Silent c1.log c'.log := hj.silent.trans hlog
  have hstrict : c2.now.strictKex = c.now.strictKex :=
    hj.flags.1.trans (congrArg (·.conn.strictKex) hr.control)
  have hfirst : c'.now.firstKexDone = c.now.firstKexDone :=
    hf.trans (hj.flags.2.trans (congrArg (·.conn.firstKexDone) hr.control))
  have hname : c2.now.strictName = c.now.strictName := by
    have hrole : c2.now.role = c.now.role :=
      (congrArg (·.role) hj.extends.settings).trans (congrArg (·.role) hr.settings)
    unfold strictName
    rw [hrole]
  have hflag : c'.now.strictKex = (c.now.strictKex || listHas theirs.kex c.now.strictName) := by
    rw [hs, hstrict, hname]
  have hplain : ¬IsMsg .newkeys p := fun h => absurd (hm.unique h) (by decide)
  cases hoff : c.now.strictKex with
  | true =>
    refine .quiet ?_ hfirst ((hr.silent hplain).trans hlog')
    rw [hflag, hoff]
    rfl
  | false =>
    cases hmark : listHas theirs.kex c.now.strictName with
    | true => exact .marks ⟨hoff, hm, _, _, _, _, hp, hn, hmark⟩ hfirst (hr.log ▸ hlog')
    | false =>
      refine .quiet ?_ hfirst ((hr.silent hplain).trans hlog')
      rw [hflag, hoff, hmark]
      rfl

theorem Handles.paces (h : Handles p c c') : Paces c c' := by
  -- only the packet itself was received, and its counter is not touched again
  obtain ⟨c0, hr0, hrest⟩ := h.handling
  have hlater : ∀ {c1 : Conn}, Receives p c c1 → Later c1.log c'.log := by
    intro c1 hr
    rw [hr.log, ← hr0.log]
    exact hrest.log
  have hstill : ∀ {c1 : Conn}, Receives p c c1 → c'.now.strictKex = c1.now.strictKex →
      (¬IsMsg .newkeys p → c'.now.firstKexDone = c1.now.firstKexDone) →
      kexSent c'.log = kexSent c1.log → Paces c c' := by
    intro c1 hr hs hf hsent
    have hstrict := hs.trans (congrArg (·.conn.strictKex) hr.control)
    by_cases hm : IsMsg .newkeys p
    · refine .received hm hstrict ?_ (hrest.seq.trans (hr0.newkeys_seq hm))
      rw [← hr.log]
      exact .of_later (hlater hr) hsent
    · refine .quiet hstrict ((hf hm).trans (congrArg (·.conn.firstKexDone) hr.control)) ?_
      exact (hr.silent hm).trans (.of_later (hlater hr) hsent)
  cases h.exchanges with
  | still hr hs => exact hstill hr hs.strict (fun _ => hs.first) hs.sent
  | kexinitServer hr hm hrole hp hj hk hn => exact paces_recorded hr hm hp hj hn rfl rfl (.refl _)
  | kexinitClient hr hm hrole hp hj hk hn hq =>
    have hstrict := congrArg (·.conn.strictKex) hq.control
    have hfirst := congrArg (·.conn.firstKexDone) hq.control
    exact paces_recorded hr hm hp hj hn hstrict hfirst (hq.silent (plain_cons (by decide)).2)
  | ecdhInit hr hrole hm hx hz hfin hlog hq hs =>
    have hplain : ¬IsMsg .newkeys p := fun h => absurd ((IsMsg.of_prefix hm).unique h) (by decide)
    have hsilent := (hr.silent hplain).trans (hlog ▸ hq.silent (plain_cons (by decide)).2)
    have hstrict := congrArg (·.conn.strictKex) hq.control
    have hfirst := congrArg (·.conn.firstKexDone) hq.control
    refine hs.paces ?_ ?_ hsilent
    · exact hstrict.trans (hfin.strict.trans (congrArg (·.conn.strictKex) hr.control))
    · exact hfirst.trans (hfin.first.trans (congrArg (·.conn.firstKexDone) hr.control))
  | ecdhReply hr hrole hm hsec hx hrest hlog hs =>
    have hplain : ¬IsMsg .newkeys p := fun h => absurd (hm.unique h) (by decide)
    refine hs.paces ?_ ?_ (hlog ▸ hr.silent hplain)
    · exact hrest.strict.trans (congrArg (·.conn.strictKex) hr.control)
    · exact hrest.first.trans (congrArg (·.conn.firstKexDone) hr.control)
  | newkeys hr hm hpk hrole hkex hstrict hlog hs =>
    refine hstill hr (hs.strict.trans hstrict) (fun hno => absurd hm hno) (hs.sent.trans ?_)
    rw [hlog, kexSent_append]
    exact List.append_nil _

theorem Step.paces (h : Step k c c') : Paces c c' := by
  rcases h.kexStill with hs | ⟨-, hs⟩
  · exact .quiet hs.strict hs.first (.of_later h.extends.log.later hs.sent)
  · exact .quiet hs.flags.1 hs.flags.2 hs.silent

/-- A packet whose handler failed. -/
theorem Receives.paces (h : Receives p c c1) (hs : c'.now.strictKex = c1.now.strictKex)
    (hf : c'.now.firstKexDone = c1.now.firstKexDone) (hseq : c'.now.recvSeq = c1.now.recvSeq)
    (hlog : c'.log = c1.log) : Paces c c' := by
  have hstrict := hs.trans (congrArg (·.conn.strictKex) h.control)
  by_cases hm : IsMsg .newkeys p
  · refine .received hm hstrict ?_ (hseq.trans (h.newkeys_seq hm))
    rw [hlog, h.log]
    exact .refl _
  · refine .quiet hstrict (hf.trans (congrArg (·.conn.firstKexDone) h.control)) ?_
    rw [hlog]
    exact h.silent hm

theorem Move.paces (h : Move c c') : Paces c c' := by
  cases h with
  | quiet h =>
    cases h with
    | step h => exact h.paces
    | handle h => exact h.paces
    | identWait h hno => exact .quiet rfl rfl (.refl _)
    | identDone h hs => exact .quiet rfl rfl (.refl _)
  | fault h =>
    cases h with
    | reject h => exact h.paces rfl rfl rfl rfl
    | spoil h hm => exact h.paces rfl rfl rfl rfl
    | drop hkind => exact .quiet rfl rfl (.refl _)
    | identBad h => exact .quiet rfl rfl (.refl _)
  | recv bytes => exact .quiet rfl rfl (.refl _)
  | own h => exact h.paces

-- ============================================================================
-- Whole runs
-- ============================================================================

/-- A NEWKEYS is in the history. -/
def Switched (c : Conn) : Prop := ∃ o ∈ c.log, o.isNewkeys = true

theorem Switched.move (h : Switched c) (hm : Move c c') : Switched c' := by
  obtain ⟨o, ho, hnew⟩ := h
  exact ⟨o, hm.log.subset ho, hnew⟩

theorem Switched.moves (h : Switched c) (hm : Moves c c') : Switched c' := by
  obtain ⟨o, ho, hnew⟩ := h
  exact ⟨o, Moves.log hm |>.subset ho, hnew⟩

omit [CryptoLib] in
/-- After a NEWKEYS the flag stays. -/
theorem Paces.strict (h : Paces c c') (hsw : Switched c) (hearly : MarkedEarly c'.log) :
    c'.now.strictKex = c.now.strictKex := by
  cases h with
  | quiet hs hf hlog => exact hs
  | received hm hs hlog hseq => exact hs
  | sent hm hs hf hlog hlast hseq => exact hs
  | marks hm hf hlog =>
    obtain ⟨new, hl, -⟩ := hlog
    obtain ⟨o, ho, hnew⟩ := hsw
    rw [hl, MarkedEarly, List.append_assoc, List.pairwise_append] at hearly
    exact absurd hm (hearly.2.2 o ho _ (List.mem_append_left _ (List.mem_singleton.mpr rfl)) hnew)

omit [CryptoLib] in
theorem MarkedEarly.of_prefix {l l' : List Obs} (h : MarkedEarly l') (hl : l <+: l') : MarkedEarly l :=
  List.Pairwise.sublist hl.sublist h

theorem Moves.strict (h : Moves c c') (hsw : Switched c) (hearly : MarkedEarly c'.log) :
    c'.now.strictKex = c.now.strictKex := by
  induction h with
  | refl => rfl
  | tail hms hm ih =>
    have hlast := hm.paces.strict (hsw.moves hms) hearly
    exact hlast.trans (ih (hearly.of_prefix hm.log))

omit [CryptoLib] in
/-- The first exchange is complete only after a NEWKEYS. -/
theorem Paces.switched (h : Paces c c') (hf : c'.now.firstKexDone = true) :
    c.now.firstKexDone = true ∨ Switched c' := by
  cases h with
  | quiet hs hf' hlog => exact .inl (hf'.symm.trans hf)
  | marks hm hf' hlog => exact .inl (hf'.symm.trans hf)
  | sent hm hs hf' hlog hlast hseq => exact .inl (hf'.symm.trans hf)
  | received hm hs hlog hseq =>
    obtain ⟨new, hl, -⟩ := hlog
    refine .inr ⟨.handled c.now _, ?_, decide_eq_true hm⟩
    rw [hl]
    simp

/-- If `o` is a NEWKEYS, the counter of its direction is zero in `c` when `reset`
    holds, and otherwise one more than before. -/
def Obs.Restarts (reset : Bool) (c : Connection) : Obs → Prop
  | handled b p => IsMsg .newkeys p → c.recvSeq = if reset then 0 else b.recvSeq + 1
  | queued b _ p _ => IsMsg .newkeys p → c.sendSeq = if reset then 0 else b.sendSeq + 1
  | _ => True

omit [CryptoLib] in
theorem Obs.Restarts.of_other {reset : Bool} {x : Connection} {o : Obs} (h : o.isNewkeys = false) :
    o.Restarts reset x := by
  cases o with
  | handled b p => exact fun hm => absurd hm (of_decide_eq_false h)
  | queued b owner p wire => exact fun hm => absurd hm (of_decide_eq_false h)
  | _ => trivial

omit [CryptoLib] in
/-- A NEWKEYS of a move resets its counter if the flag is set. -/
theorem Paces.restarts {new : List Obs} {o : Obs} (h : Paces c c') (hnew : c'.log = c.log ++ new)
    (ho : o ∈ new) : o.Restarts c'.now.strictKex c'.now := by
  cases h with
  | quiet hs hf hlog =>
    obtain ⟨new', hl, hsilent⟩ := hlog
    rw [List.append_cancel_left (hnew.symm.trans hl)] at ho
    exact .of_other (hsilent o ho)
  | marks hm hf hlog =>
    obtain ⟨new', hl, hsilent⟩ := hlog
    rw [List.append_assoc] at hl
    rw [List.append_cancel_left (hnew.symm.trans hl)] at ho
    rcases List.mem_cons.mp ho with rfl | ho
    · exact .of_other (decide_eq_false fun h => absurd (hm.kexinit.unique h) (by decide))
    · exact .of_other (hsilent o ho)
  | received hm hs hlog hseq =>
    obtain ⟨new', hl, hsilent⟩ := hlog
    rw [List.append_assoc] at hl
    rw [List.append_cancel_left (hnew.symm.trans hl)] at ho
    rcases List.mem_cons.mp ho with rfl | ho
    · rw [hs]
      exact fun _ => hseq
    · exact .of_other (hsilent o ho)
  | sent hm hs hf hlog hlast hseq =>
    obtain ⟨new', rfl, hsilent⟩ := hlog
    rw [List.append_assoc] at hlast
    rw [List.append_cancel_left (hnew.symm.trans hlast)] at ho
    rcases List.mem_append.mp ho with ho | ho
    · exact .of_other (hsilent o ho)
    · rw [List.mem_singleton.mp ho, hs]
      exact fun _ => hseq

namespace Setup

variable {setup : Setup}

/-- The flag is what it was when the first exchange was complete, and every
    NEWKEYS so far reset the counter of its direction, or none did. -/
structure Settled (setup : Setup) (c : Conn) : Prop where
  fixed : ∀ c1, setup.Reaches c1 → Moves c1 c → c1.now.firstKexDone = true →
    c.now.strictKex = c1.now.strictKex
  restarts : ∃ reset, ∀ c1 c2 new, setup.Reaches c1 → Move c1 c2 → Moves c2 c →
    c2.log = c1.log ++ new → ∀ o ∈ new, o.Restarts reset c2.now

theorem Reaches.switched (h : setup.Reaches c) (hf : c.now.firstKexDone = true) : Switched c := by
  obtain ⟨rng, c0, hstart, hmoves⟩ := h
  induction hmoves with
  | refl =>
    have hblank : (setup.blank rng).firstKexDone = false := by
      cases setup <;> rfl
    exact absurd (hstart.flags.2.symm.trans hf) (by simp [hblank])
  | tail hms hm ih =>
    rcases hm.paces.switched hf with hold | hnew
    · exact (ih hold).move hm
    · exact hnew

/-- Whenever strict key exchange was turned on only before the first NEWKEYS of
    either side, it is settled by the first exchange. -/
theorem settled_of_early (hearly : MarkedEarly c.log) : setup.Settled c := by
  refine ⟨fun c1 h1 hmoves hf => Moves.strict hmoves (h1.switched hf) hearly,
    c.now.strictKex, fun c1 c2 new h1 hm hmoves hnew o ho => ?_⟩
  by_cases hother : o.isNewkeys = true
  · have hsw : Switched c2 := ⟨o, by rw [hnew]; exact List.mem_append_right _ ho, hother⟩
    rw [Moves.strict hmoves hsw hearly]
    exact hm.paces.restarts hnew ho
  · exact .of_other (Bool.eq_false_iff.mpr hother)

omit [CryptoLib] in
/-- The peer asks for strict key exchange in its first KEXINIT. -/
theorem settled_of_early_strictPeer : ∃ c,
    @Setup.run Toy.lib (.server Toy.server) Toy.rng (strictPeer []) = .ok () c ∧
      c.now.firstKexDone = true ∧ c.now.strictKex = true ∧
      @Settled Toy.lib (.server Toy.server) c := by
  have hpass : (@Setup.run Toy.lib (.server Toy.server) Toy.rng (strictPeer [])).passes (fun c =>
      c.now.firstKexDone && c.now.strictKex && decide (c.log.Pairwise fun o o' =>
        o.isNewkeys = false ∨ ∀ x ∈ handledPackets [o'], ¬IsMsg .kexinit x.2)) = true := by
    decide +kernel
  obtain ⟨_, c, hrun, hc⟩ := Outcome.exists_of_passes hpass
  rw [Bool.and_eq_true, Bool.and_eq_true, decide_eq_true_iff] at hc
  refine ⟨c, hrun, hc.1.1, hc.1.2, @settled_of_early Toy.lib c (.server Toy.server) ?_⟩
  refine hc.2.imp fun {o o'} h hnew hmarks => ?_
  rcases h with h | h
  · exact absurd (hnew.symm.trans h) (by decide)
  · cases o' with
    | handled b p => exact h (b, p) (mem_handledPackets.mpr (List.mem_singleton.mpr rfl)) hmarks.kexinit
    | _ => exact hmarks

/-- The KEXINIT with which a client starts the next exchange, with the marker. -/
def lateMarker : List Call :=
  [.recv (Toy.sealedPacket (Toy.kexinit ["curve25519-sha256", kexStrictC] serverCiphers)), .processIn]

omit [CryptoLib] in
/-- After a first exchange without the marker, a rekey with it turns the flag on. -/
theorem marked_late : ¬∀ (lib : CryptoLib) (setup : Setup) (rng : Rng) (calls : List Call)
    (c : Conn), @Setup.run lib setup rng calls = .ok () c → @Settled lib setup c := by
  intro hclaim
  let _ := Toy.lib
  have hpass : (@Setup.run Toy.lib (.server Toy.server) Toy.rng
      ([.recv (channelPeer 1000), .processIn] ++ lateMarker)).passes (fun c => c.now.strictKex) = true := by
    decide +kernel
  have hfirst : (@Setup.run Toy.lib (.server Toy.server) Toy.rng
      [.recv (channelPeer 1000), .processIn]).passes
        (fun c => c.now.firstKexDone && !c.now.strictKex) = true := by
    decide +kernel
  obtain ⟨_, c1, hrun1, hc1⟩ := Outcome.exists_of_passes hfirst
  obtain ⟨_, c, hrun, hc⟩ := Outcome.exists_of_passes hpass
  rw [Bool.and_eq_true, Bool.not_eq_true'] at hc1
  have hfixed := (hclaim _ _ _ _ c hrun).fixed c1 (Reaches.of_run hrun1)
    (run_append hrun1 hrun) hc1.1
  rw [hc1.2, hc] at hfixed
  cases hfixed

end Setup

end Ssproxy
