/-
  Ssproxy.Machine.Sender

  The sending side of a connection: the send key with its counters, and the
  output buffers.  Every move, seen from there, is a sequence of

  - `rest`: the sending side stays as it is;
  - `queue`: a message is sealed and appended to the queue;
  - `install`: a new send key is put in place;
  - `pull`: the next piece is made current;

  and `consume_out`, which hands bytes to the socket.  What is true of the
  sending side follows from this list by one induction.
-/

import Ssproxy.Machine.Emits
import Ssproxy.Machine.Slots

namespace Ssproxy

open Lib Wire Connection Relation

-- ============================================================================
-- The elementary moves
-- ============================================================================

/-- The sending side of a connection. -/
structure Sender where
  installs : Nat
  cipher : DirectionKeys
  seq : UInt32
  ident : Option Bytes
  current : Option Bytes
  isIdent : Bool
  queue : List Bytes
  bytes : Nat
  soft : Nat

def Connection.sender (c : Connection) : Sender :=
  ⟨c.sendInstalls, c.sendCipher, c.sendSeq, c.identOut, c.currentOut, c.currentIsIdent, c.writeQ,
    c.writeBytes, c.writeSoft⟩

variable [CryptoLib]

/-- An elementary move of the sending side.  Data is sealed below the soft limit
    only, and its payload satisfies `D`. -/
inductive Outgo (D : Bytes → Prop) (c : Conn) : Conn → Prop where
  | rest {c' : Conn} {new : List Obs} (hs : c'.now.sender = c.now.sender)
      (hlog : c'.log = c.log ++ new) (hnew : ∀ o ∈ new, o.isQueued = false) : Outgo D c c'
  | queue {c' : Conn} {owner : Option UInt32} {payload : Bytes} (hq : Queues owner payload c c')
      (hdata : IsMsg .channelData payload →
        c.now.queuedWriteBytes < c.now.writeSoft ∧ D payload) : Outgo D c c'
  | install (pk : PendingKeys) : Outgo D c ⟨c.now.installSend pk, c.log⟩
  | pull : Outgo D c ⟨c.now.pullCurrentOut, c.log⟩

/-- Sequences of elementary moves. -/
def Outgoes (D : Bytes → Prop) (c c' : Conn) : Prop := ReflTransGen (Outgo D) c c'

/-- The data that a step from `c` may seal satisfies `D`. -/
structure Carries (D : Bytes → Prop) (c : Connection) : Prop where
  direct : ∀ r chunk, chunk.length ≤ pendingMax → D (Msg.channelData r chunk)
  pending : ∀ id ch front queue r n, c.channels.get? id = some ch →
    ch.pendingOut = front :: queue → D (Msg.channelData r (front.take n))

variable {D : Bytes → Prop} {c c' c1 : Conn} {p payload : Bytes} {owner : Option UInt32}
  {new : List Obs} {k : Cause} {m : MsgType} {r : Bytes}

omit [CryptoLib] in
theorem carries_true (c : Connection) : Carries (fun _ => True) c :=
  ⟨fun _ _ _ => trivial, fun _ _ _ _ _ _ _ _ => trivial⟩

omit [CryptoLib] in
/-- Any message but data. -/
theorem not_data (h : m ≠ .channelData) : ¬IsMsg .channelData (m.code :: r) :=
  fun hm => h (IsMsg.unique (p := m.code :: r) rfl hm)

namespace Outgoes

theorem refl (c : Conn) : Outgoes D c c := ReflTransGen.refl

theorem trans (h : Outgoes D c c1) (h' : Outgoes D c1 c') : Outgoes D c c' :=
  ReflTransGen.trans h h'

theorem one (h : Outgo D c c') : Outgoes D c c' := ReflTransGen.single h

theorem still (hs : c'.now.sender = c.now.sender) (hlog : c'.log = c.log) : Outgoes D c c' :=
  one (.rest hs (by rw [hlog, List.append_nil]) (List.forall_mem_nil _))

/-- One observation that is no message. -/
theorem note {o : Obs} (hs : c'.now.sender = c.now.sender) (hlog : c'.log = c.log ++ [o])
    (ho : o.isQueued = false) : Outgoes D c c' :=
  one (.rest hs hlog fun o' h => by rwa [List.mem_singleton.mp h])

/-- The sending side stays as it is, and more follows. -/
theorem since (h : Outgoes D c1 c') (hs : c1.now.sender = c.now.sender)
    (hlog : c1.log = c.log ++ new) (hnew : ∀ o ∈ new, o.isQueued = false) : Outgoes D c c' :=
  (one (.rest hs hlog hnew)).trans h

theorem event (c : Conn) (ev : Event) : Outgoes D c (withEvent c ev) := note rfl rfl rfl

theorem channel (c : Conn) (id : UInt32) (ch : Channel) : Outgoes D c (withChannel c id ch) :=
  still rfl rfl

theorem freed (c : Conn) (id : UInt32) : Outgoes D c (withoutChannel c id) := by
  unfold withoutChannel
  split
  · exact note rfl rfl rfl
  · exact still rfl (List.append_nil _)

/-- What every elementary move does, a sequence of them does. -/
theorem induct {R : Conn → Conn → Prop} (h : Outgoes D c c') (hrefl : ∀ c, R c c)
    (htrans : ∀ c c1 c', R c c1 → R c1 c' → R c c') (hone : ∀ c c', Outgo D c c' → R c c') :
    R c c' := by
  induction h with
  | refl => exact hrefl _
  | tail _ hlast ih => exact htrans _ _ _ ih (hone _ _ hlast)

end Outgoes

-- ============================================================================
-- The effects
-- ============================================================================

/-- A message that is no data. -/
theorem Queues.outgoes (h : Queues owner payload c c') (hp : ¬IsMsg .channelData payload) :
    Outgoes D c c' :=
  .one (.queue h fun hm => absurd hm hp)

omit [CryptoLib] in
theorem Draws.sender (h : Draws c c') : c'.now.sender = c.now.sender ∧ c'.log = c.log := by
  cases h
  exact ⟨rfl, rfl⟩

theorem Sends.outgoes (h : Sends owner payload c c') (hp : ¬IsMsg .channelData payload) :
    Outgoes D c c' := by
  rcases h with h | ⟨-, h⟩
  · exact h.outgoes hp
  · exact .still h.sender.1 h.sender.2

theorem Receives.outgoes (h : Receives p c c1) : Outgoes D c c1 := by
  obtain ⟨cipher, rest, total, -, -, rfl⟩ := h.opens
  refine .note ?_ rfl rfl
  unfold resetRecv
  split <;> rfl

theorem Starts.outgoes (h : Starts c c') : Outgoes D c c' := by
  cases h with
  | @mk c1 hq =>
    have hno : ¬IsMsg .channelData c.now.ownKexInit.raw :=
      fun hm => absurd ((isMsg_ownKexInit _).unique hm) (by decide)
    have hdrawn : Outgoes D c ⟨{ c.now with rng := c.now.rng.skip 16 }, c.log⟩ := .still rfl rfl
    have hstarted : Outgoes D c1 ⟨c1.now.started c.now.ownKexInit, c1.log⟩ := .still rfl rfl
    exact (hdrawn.trans (hq.outgoes hno)).trans hstarted

theorem Joins.outgoes (h : Joins c c') : Outgoes D c c' := by
  cases h with
  | running hk => exact .refl c
  | started hk hs => exact hs.outgoes

theorem Switches.outgoes {pk : PendingKeys} (h : Switches pk c c') : Outgoes D c c' := by
  cases h with
  | mk hpk hq => exact (hq.outgoes (not_data (by decide))).trans (.one (.install pk))

theorem HangsUp.outgoes {reason : UInt32} {msg : String} (h : HangsUp reason msg c c') :
    Outgoes D c c' := by
  cases h with
  | again hc => exact .refl c
  | first hc hs => exact (hs.outgoes (not_data (by decide))).trans (.note rfl rfl rfl)

theorem Denies.outgoes {cfg : ServerConfig} (h : Denies cfg c c') : Outgoes D c c' := by
  cases h with
  | soft hlt hq => exact hq.outgoes (not_data (by decide))
  | hard hge hh => exact hh.outgoes

theorem Greets.outgoes (h : Greets c c') : Outgoes D c c' := by
  cases h with
  | silent hr he => exact .refl c
  | extInfo hr he hq => exact hq.outgoes (not_data (by decide))
  | service hr hq => exact hq.outgoes (not_data (by decide))

theorem Allocates.outgoes {ch : Channel} {id : UInt32} (h : Allocates ch c id c') :
    Outgoes D c c' := by
  cases h
  exact .note rfl rfl rfl

omit [CryptoLib] in
theorem Answers.not_data {c : Connection} (h : Answers c p owner payload) :
    ¬IsMsg .channelData payload := by
  cases h with
  | «global» hm hw hr =>
    rcases hr with rfl | rfl
    · exact Ssproxy.not_data (by decide)
    · exact Ssproxy.not_data (by decide)
  | request hm hw hch hr ht =>
    rcases ht with rfl | rfl
    · exact Ssproxy.not_data (by decide)
    · exact Ssproxy.not_data (by decide)
  | service | credentials | unknownType | ping | unknown => exact Ssproxy.not_data (by decide)

-- ============================================================================
-- The moves
-- ============================================================================

omit [CryptoLib] in
/-- With the gate open there is an allowance below the soft limit only. -/
theorem outboundAllowance_soft {c : Connection} {ch : Channel} {id : UInt32} {chunk : Bytes}
    (hch : c.channels.get? id = some ch) (hne : chunk ≠ []) (hgate : c.kexBlocksApp = false)
    (hallow : chunk.length ≤ c.outboundAllowance id) : c.queuedWriteBytes < c.writeSoft := by
  have hpos := List.length_pos_iff.mpr hne
  unfold outboundAllowance at hallow
  rw [hch] at hallow
  dsimp only at hallow
  rw [hgate, if_neg Bool.false_ne_true] at hallow
  split at hallow <;> omega

theorem SendsData.outgoes {id : UInt32} {chunks : List Bytes} (h : SendsData id c chunks c')
    (hD : ∀ r chunk, chunk.length ≤ pendingMax → D (Msg.channelData r chunk)) :
    Outgoes D c c' := by
  induction h with
  | done c => exact .refl c
  | defer hch hne hallow hgate htail ih => exact (Outgoes.channel _ _ _).trans ih
  | wire hch hne hallow hgate hr hq htail ih =>
    have hroom := outboundAllowance_soft hch hne hgate hallow
    have hpending := outboundAllowance_room hch hne hallow
    have hsealed : Outgoes D _ _ := .one (.queue hq fun _ => ⟨hroom, hD _ _ (by omega)⟩)
    exact ((Outgoes.channel _ _ _).trans hsealed).trans ih

/-- Every step but `consume_out`. -/
theorem Step.outgoes (h : Step k c c') (hk : ∀ n, k ≠ .call (.consumeOut n))
    (hD : Carries D c.now) : Outgoes D c c' := by
  cases h with
  | pull => exact .one .pull
  | drain hb hm => exact absurd rfl (hk _)
  | draw h => exact .still h.sender.1 h.sender.2
  | startKex hk hs h => exact h.outgoes
  | hangUp h => exact h.outgoes
  | grant hgate hch hadd hpos hr hq =>
    exact (Outgoes.channel _ _ _).trans (hq.outgoes (not_data (by decide)))
  | sendData h hn hdata => exact (h.outgoes hD.direct).trans (.note rfl rfl rfl)
  | sendLost h hch hgate hr hsoft hhard => exact (h.outgoes hD.direct).trans (.still rfl rfl)
  | flush hch hcan hp hne hq =>
    have hsealed : Outgoes D _ _ := .one (.queue hq fun _ => ⟨hcan.room, hD.pending _ _ _ _ _ _ hch hp⟩)
    exact (Outgoes.channel _ _ _).trans hsealed
  | askEof hch he hc => exact .note rfl rfl rfl
  | askClose hgate hch hc => exact .note rfl rfl rfl
  | closeAgain hch hc hw => exact .note rfl rfl rfl
  | closeSilent hgate hch hc hw hr => exact .note rfl rfl rfl
  | @closeNow _ _ id ch r hgate hch hc hw hr hq =>
    have hnoted : Outgoes D c ⟨c.now.putChannel id
        { ch with sentClose := true, sentEof := true, wireClose := true, wireEof := true },
      c.log ++ [.ended c.now id true]⟩ := .note rfl rfl rfl
    exact hnoted.trans (hq.outgoes (not_data (by decide)))
  | emitEof hgate hch he hw hr hq =>
    exact (Outgoes.channel _ _ _).trans (hq.outgoes (not_data (by decide)))
  | emitClose hgate hch hc hw hr hq =>
    exact (Outgoes.channel _ _ _).trans (hq.outgoes (not_data (by decide)))
  | freeClosed hch hg hw => exact .freed _ _
  | closeEvent id => exact .event _ _
  | confirm hch hr hq =>
    exact (Outgoes.channel _ _ _).trans (hq.outgoes (not_data (by decide)))
  | failOpen hch hr hs => exact (Outgoes.freed _ _).trans (hs.outgoes (not_data (by decide)))
  | openLocal hrole hauth ha hs => exact ha.outgoes.trans (hs.outgoes (not_data (by decide)))
  | _ => exact .still rfl rfl

theorem Handles.outgoes (h : Handles p c c') : Outgoes D c c' := by
  cases h with
  | skip hr h => exact hr.outgoes
  | answer hr h hq => exact hr.outgoes.trans (hq.outgoes h.not_data)
  | kexinitServer hr hm hrole hp hj hk hn =>
    exact (hr.outgoes.trans hj.outgoes).trans (.still rfl rfl)
  | @kexinitClient c1 c2 _ q theirs k c2s s2c pub hr hm hrole hp hj hk hn hpub hq =>
    have hrec : Outgoes D c2 ⟨c2.now.recorded k theirs c2s s2c, c2.log⟩ := .still rfl rfl
    exact (hr.outgoes.trans hj.outgoes).trans (hrec.trans (hq.outgoes (not_data (by decide))))
  | ecdhInit hr hrole hm hcfg hx hz hq hs =>
    have hreply : Outgoes D _ _ := (hq.outgoes (not_data (by decide))).trans hs.outgoes
    exact hr.outgoes.trans (hreply.since rfl (List.append_nil _).symm (List.forall_mem_nil _))
  | ecdhReply hr hrole hm hpub hsec hx hks hsig hz hs =>
    exact hr.outgoes.trans
      (hs.outgoes.since rfl (List.append_nil _).symm (List.forall_mem_nil _))
  | newkeysFirst hr hm hpk hf hg =>
    exact hr.outgoes.trans (hg.outgoes.since rfl rfl (by simp [Obs.isQueued]))
  | newkeysAgain hr hm hpk hf => exact hr.outgoes.trans (.note rfl rfl rfl)
  | userauthSuccess hr hm =>
    exact hr.outgoes.trans ((Outgoes.event _ _).since rfl rfl (by simp [Obs.isQueued]))
  | authAccept hr hrole hcfg hm hok hq =>
    have haccept : Outgoes D _ _ := hq.outgoes (not_data (by decide))
    refine (hr.outgoes.trans (haccept.since rfl (List.append_assoc _ _ _) ?_)).trans (.event _ _)
    simp [Obs.isQueued]
  | authReject hr hrole hcfg hm hbad hd =>
    exact hr.outgoes.trans (hd.outgoes.since rfl rfl (by simp [Obs.isQueued]))
  | authOther hr hrole hcfg hm hd => exact hr.outgoes.trans hd.outgoes
  | @disconnect c1 reason msg hr hm =>
    have hclosed : Outgoes D c1 ⟨{ c1.now with closed := true }, c1.log⟩ := .still rfl rfl
    exact hr.outgoes.trans (hclosed.trans (.event _ _))
  | openSession hr hm hauth ha => exact (hr.outgoes.trans ha.outgoes).trans (.event _ _)
  | openDirect hr hm hauth ha => exact (hr.outgoes.trans ha.outgoes).trans (.event _ _)
  | openConfirm hr hm hch => exact (hr.outgoes.trans (.channel _ _ _)).trans (.event _ _)
  | openFail hr hm => exact (hr.outgoes.trans (.freed _ _)).trans (.event _ _)
  | windowAdjust hr hm hch => exact hr.outgoes.trans (.channel _ _ _)
  | deliver hr hm hch hw => exact (hr.outgoes.trans (.channel _ _ _)).trans (.event _ _)
  | peerEof hr hm hch => exact (hr.outgoes.trans (.channel _ _ _)).trans (.event _ _)
  | peerEofUnknown hr hm hch => exact hr.outgoes.trans (.event _ _)
  | peerClose hr hm hch => exact hr.outgoes.trans (.channel _ _ _)

theorem Faults.outgoes (h : Faults c c') : Outgoes D c c' := by
  cases h with
  | reject h => exact h.outgoes
  | spoil h hm => exact h.outgoes.trans (.still rfl rfl)
  | drop hkind => exact .still rfl rfl
  | identBad h => exact .still rfl rfl

theorem Quiet.outgoes (h : Quiet c c') (hD : Carries D c.now) : Outgoes D c c' := by
  cases h with
  | step h => exact h.outgoes nofun hD
  | handle h => exact h.outgoes
  | identWait h hno => exact .still rfl rfl
  | identDone h hs => exact .still rfl rfl

/-- Any move: elementary moves of the sending side, or the socket takes bytes. -/
theorem Move.outgoes (h : Move c c') (hD : Carries D c.now) :
    Outgoes D c c' ∨ ∃ b m, c.now.pullCurrentOut.currentOut = some b ∧
      c' = ⟨c.now.pullCurrentOut.drained b (min m b.length), c.log⟩ := by
  cases h with
  | quiet h => exact .inl (h.outgoes hD)
  | fault h => exact .inl h.outgoes
  | recv bytes => exact .inl (.still rfl rfl)
  | @own _ k h =>
    by_cases hk : ∃ n, k = .call (.consumeOut n)
    · obtain ⟨n, rfl⟩ := hk
      cases h with
      | drain hb hm => exact .inr ⟨_, _, hb, rfl⟩
    · exact .inl (h.outgoes (fun n hn => hk ⟨n, hn⟩) hD)

end Ssproxy
