/-
  Ssproxy.Machine.Emits

  Which messages a move may queue, and how the queued messages follow the key
  exchange.

  - `Emits`: what a step queues, by its cause.
  - `Replies`: what the handling of a packet queues.
  - `staged`: the queued messages, each with the stage of the key exchange that
    the messages before it tell.  It is always the stage of the connection.
-/

import Ssproxy.Refine.Run

namespace Ssproxy

open Lib Wire Connection Relation

-- ============================================================================
-- The stages of a key exchange
-- ============================================================================

/-- How far our own messages of a key exchange have got. -/
inductive Stage where
  /-- No exchange is running. -/
  | idle
  /-- Our KEXINIT is out and our NEWKEYS is not. -/
  | offered
  /-- Both are out. -/
  | switched
  deriving DecidableEq, Repr

def Connection.stage (c : Connection) : Stage :=
  if c.kex.isSome then (if c.sentNewkeys then .switched else .offered) else .idle

theorem stage_of_control {c c' : Connection} (h : c'.control = c.control) : c'.stage = c.stage :=
  congrArg (·.conn.stage) h

theorem stage_congr {c c' : Connection} (hk : c'.kex.isSome = c.kex.isSome)
    (hs : c'.sentNewkeys = c.sentNewkeys) : c'.stage = c.stage := by
  unfold Connection.stage
  rw [hk, hs]

theorem stage_ne_idle {c : Connection} : c.stage ≠ .idle ↔ c.kex.isSome = true := by
  unfold Connection.stage
  cases c.kex.isSome with
  | false => simp
  | true => cases c.sentNewkeys <;> simp

-- ============================================================================
-- New messages
-- ============================================================================

/-- A message was queued. -/
def Obs.isQueued : Obs → Bool
  | queued _ _ _ _ => true
  | _ => false

/-- Every message queued in `l'` is one of `l` or as `P` says. -/
def Adds (P : Connection → Option UInt32 → Bytes → Prop) (l l' : List Obs) : Prop :=
  ∀ b owner payload wire, Obs.queued b owner payload wire ∈ l' →
    Obs.queued b owner payload wire ∈ l ∨ P b owner payload

namespace Adds

variable {P Q : Connection → Option UInt32 → Bytes → Prop} {l l' l'' : List Obs}

theorem refl (P : Connection → Option UInt32 → Bytes → Prop) (l : List Obs) : Adds P l l :=
  fun _ _ _ _ h => .inl h

theorem trans (h : Adds P l l') (h' : Adds P l' l'') : Adds P l l'' := by
  intro b owner payload wire hmem
  rcases h' b owner payload wire hmem with hmem | hP
  · exact h b owner payload wire hmem
  · exact .inr hP

theorem mono (h : Adds P l l') (hPQ : ∀ b owner payload, P b owner payload → Q b owner payload) :
    Adds Q l l' :=
  fun b owner payload wire hmem => (h b owner payload wire hmem).imp_right (hPQ b owner payload)

/-- An observation that is no message. -/
theorem other {o : Obs} (ho : o.isQueued = false) : Adds P l (l ++ [o]) := by
  intro b owner payload wire hmem
  rcases List.mem_append.mp hmem with hmem | hmem
  · exact .inl hmem
  · rw [← List.mem_singleton.mp hmem] at ho
    cases ho

theorem message {b : Connection} {owner : Option UInt32} {payload wire : Bytes}
    (h : P b owner payload) : Adds P l (l ++ [.queued b owner payload wire]) := by
  intro b' owner' payload' wire' hmem
  rcases List.mem_append.mp hmem with hmem | hmem
  · exact .inl hmem
  · cases List.mem_singleton.mp hmem
    exact .inr h

end Adds

variable [CryptoLib] {p payload : Bytes} {owner : Option UInt32} {c c' c1 : Conn} {k : Cause}
  {P : Connection → Option UInt32 → Bytes → Prop}

theorem Queues.adds (h : Queues owner payload c c') (hP : P c.now owner payload) :
    Adds P c.log c'.log := by
  obtain ⟨wire, hlog⟩ := h.log
  rw [hlog]
  exact .message hP

theorem Sends.adds_fit (h : Sends owner payload c c')
    (hP : ¬c.now.TooLong payload → P c.now owner payload) : Adds P c.log c'.log := by
  rcases h with h | ⟨-, h⟩
  · exact h.adds (hP h.fits)
  · rw [h.log]
    exact .refl P _

theorem Sends.adds (h : Sends owner payload c c') (hP : P c.now owner payload) :
    Adds P c.log c'.log :=
  h.adds_fit fun _ => hP

theorem HangsUp.adds {reason : UInt32} {msg : String} (h : HangsUp reason msg c c')
    (hP : P c.now none (Msg.disconnect reason msg)) : Adds P c.log c'.log := by
  cases h with
  | again hc => exact .refl P _
  | first hc hs => exact (hs.adds hP).trans (.other rfl)

omit [CryptoLib] in
theorem adds_withoutChannel (c : Conn) (id : UInt32) : Adds P c.log (withoutChannel c id).log := by
  unfold withoutChannel
  dsimp only
  split
  · exact .other rfl
  · rw [List.append_nil]
    exact .refl P _

omit [CryptoLib] in
theorem isMsg_ownKexInit (c : Connection) : IsMsg .kexinit c.ownKexInit.raw := by
  simp only [IsMsg, ownKexInit, KexInit.build, List.head?_cons]

theorem Starts.adds (h : Starts c c')
    (hP : ∀ b payload, b.control = c.now.control → IsMsg .kexinit payload → P b none payload) :
    Adds P c.log c'.log := by
  cases h with
  | mk hq => exact hq.adds (hP _ _ rfl (isMsg_ownKexInit _))

-- ============================================================================
-- What a step queues
-- ============================================================================

/-- The messages that a step with cause `k` seals in state `b`. -/
inductive Emits (b : Connection) : Cause → Option UInt32 → Bytes → Prop where
  | kexinit {payload : Bytes} (hk : b.kex = none) (hm : IsMsg .kexinit payload) :
      Emits b .own none payload
  | disconnect {reason : UInt32} {msg : String} : Emits b .own none (Msg.disconnect reason msg)
  | adjust {id r add : UInt32} (hgate : b.kexBlocksApp = false) :
      Emits b (.adjust id) (some id) (Msg.windowAdjust r add)
  | data {k : Cause} {id r : UInt32} {chunk : Bytes} (hgate : b.kexBlocksApp = false) :
      Emits b k (some id) (Msg.channelData r chunk)
  | eof {id r : UInt32} (hgate : b.kexBlocksApp = false) :
      Emits b .own (some id) (Msg.channelEof r)
  | close {id r : UInt32} (hgate : b.kexBlocksApp = false) :
      Emits b .own (some id) (Msg.channelClose r)
  | confirm {id r window maxPacket : UInt32} :
      Emits b (.call (.confirmOpen id)) (some id) (Msg.openConfirmation r id window maxPacket)
  | failure {id r reason : UInt32} {msg : String} :
      Emits b (.call (.failOpen id reason msg)) (some id) (Msg.openFailure r reason msg)
  | opening {id window maxPacket : UInt32} {host : String} {port : UInt32} :
      Emits b (.call (.openDirectTcpip host port)) (some id)
        (Msg.channelOpen id window maxPacket host port)

/-- A message that a step from `c` queues; the control part of `c` is still in
    place when it is sealed. -/
def StepSent (c : Connection) (k : Cause) (b : Connection) (owner : Option UInt32)
    (payload : Bytes) : Prop :=
  b.control = c.control ∧ Emits b k owner payload

theorem SendsData.adds {id : UInt32} {chunks : List Bytes} (h : SendsData id c chunks c') :
    Adds (StepSent c.now k) c.log c'.log := by
  induction h with
  | done c => exact .refl _ _
  | defer hch hne hallow hgate htail ih => exact ih.mono fun _ _ _ h => h
  | wire hch hne hallow hgate hr hq htail ih =>
    refine (hq.adds ⟨rfl, .data hgate⟩).trans (ih.mono ?_)
    rintro b owner payload ⟨hb, he⟩
    exact ⟨hb.trans hq.control, he⟩

theorem Step.adds (h : Step k c c') : Adds (StepSent c.now k) c.log c'.log := by
  cases h with
  | startKex hk hs h =>
    refine h.adds fun b payload hb hm => ⟨hb, .kexinit ?_ hm⟩
    exact (congrArg (·.conn.kex) hb).trans hk
  | hangUp h => exact h.adds ⟨rfl, .disconnect⟩
  | draw h =>
    rw [h.log]
    exact .refl _ _
  | grant hgate hch hadd hpos hr hq => exact hq.adds ⟨rfl, .adjust hgate⟩
  | sendData h hn hdata => exact h.adds.trans (.other rfl)
  | sendLost h hch hgate hr hsoft hhard => exact h.adds
  | flush hch hcan hp hne hq => exact hq.adds ⟨rfl, .data hcan.gate⟩
  | askEof hch he hc => exact .other rfl
  | askClose hgate hch hc => exact .other rfl
  | closeAgain hch hc hw => exact .other rfl
  | closeSilent hgate hch hc hw hr => exact .other rfl
  | closeNow hgate hch hc hw hr hq => exact (Adds.other rfl).trans (hq.adds ⟨rfl, .close hgate⟩)
  | emitEof hgate hch he hw hr hq => exact hq.adds ⟨rfl, .eof hgate⟩
  | emitClose hgate hch hc hw hr hq => exact hq.adds ⟨rfl, .close hgate⟩
  | freeClosed hch hg hw => exact adds_withoutChannel _ _
  | closeEvent id => exact .other rfl
  | confirm hch hr hq => exact hq.adds ⟨rfl, .confirm⟩
  | failOpen hch hr hs => exact (adds_withoutChannel _ _).trans (hs.adds ⟨rfl, .failure⟩)
  | openLocal hrole hauth ha hs =>
    cases ha with
    | mk ht => exact (Adds.other rfl).trans (hs.adds ⟨rfl, .opening⟩)
  | pull | drain | popEvent | roundRobin | tick | consume | grantSilent | flushLost
  | emitEofSilent | emitCloseSilent | confirmSilent => exact .refl _ _

-- ============================================================================
-- What the handling of a packet queues
-- ============================================================================

/-- The messages of the transport layer that a handler sends. -/
def MsgType.transport : List MsgType :=
  [.kexinit, .kexEcdhInit, .kexEcdhReply, .newkeys, .extInfo, .serviceRequest, .disconnect]

/-- The messages that the handling of `p` in state `c` seals in state `b`. -/
inductive Replied (p : Bytes) (c b : Connection) : Option UInt32 → Bytes → Prop where
  | answer {owner : Option UInt32} {payload : Bytes} (hb : b.control = c.control)
      (hch : b.channels = c.channels) (h : Answers b p owner payload)
      (hfit : ¬b.TooLong payload) : Replied p c b owner payload
  | transport {m : MsgType} {payload : Bytes} (hm : IsMsg m payload)
      (hmem : m ∈ MsgType.transport) : Replied p c b none payload
  | accepted {cfg : ServerConfig} {user password : String} (hrole : c.role = .server)
      (hcfg : c.server = some cfg) (hm : Msg.passwordRequest user password <+: p)
      (hok : cfg.checkPassword user password = true) (hs : b.stage = c.stage) :
      Replied p c b none Msg.userauthSuccess
  | rejected {cfg : ServerConfig} {user password : String} (hrole : c.role = .server)
      (hcfg : c.server = some cfg) (hm : Msg.passwordRequest user password <+: p)
      (hbad : cfg.checkPassword user password = false)
      (hlt : c.authFails + 1 < cfg.maxAuthFails) (ha : b.authed = c.authed) (hs : b.stage = c.stage) :
      Replied p c b none Msg.userauthFailure
  | refused {cfg : ServerConfig} (hrole : c.role = .server) (hcfg : c.server = some cfg)
      (hm : IsMsg .userauthRequest p) (hlt : c.authFails < cfg.maxAuthFails)
      (ha : b.authed = c.authed) (hs : b.stage = c.stage) (ho : Unchecked p) :
      Replied p c b none Msg.userauthFailure

theorem Receives.adds (h : Receives p c c1) : Adds P c.log c1.log := by
  rw [h.log]
  exact .other rfl

theorem Joins.adds (h : Joins c c')
    (hP : ∀ b payload, IsMsg .kexinit payload → P b none payload) : Adds P c.log c'.log := by
  cases h with
  | running hk => exact .refl _ _
  | started hk hs => exact hs.adds fun b payload _ hm => hP b payload hm

theorem Switches.adds {pk : PendingKeys} (h : Switches pk c c')
    (hP : P c.now none Msg.newkeys) : Adds P c.log c'.log := by
  cases h with
  | mk hpk hq => exact hq.adds hP

theorem Greets.adds (h : Greets c c') (hext : P c.now none Msg.extInfo)
    (hservice : P c.now none Msg.serviceRequest) : Adds P c.log c'.log := by
  cases h with
  | silent hr he => exact .refl _ _
  | extInfo hr he hq => exact hq.adds hext
  | service hr hq => exact hq.adds hservice

theorem Denies.adds {cfg : ServerConfig} (h : Denies cfg c c')
    (hfail : c.now.authFails < cfg.maxAuthFails → P c.now none Msg.userauthFailure)
    (hbye : ∀ reason msg, P c.now none (Msg.disconnect reason msg)) : Adds P c.log c'.log := by
  cases h with
  | soft hlt hq => exact hq.adds (hfail hlt)
  | hard hge hh => exact hh.adds (hbye _ _)

omit [CryptoLib] in
theorem Allocates.adds {ch : Channel} {id : UInt32} (h : Allocates ch c id c') :
    Adds P c.log c'.log := by
  cases h with
  | mk ht => exact .other rfl

theorem Receives.stage (h : Receives p c c1) : c1.now.stage = c.now.stage :=
  stage_of_control h.control

/-- A transport message, whatever the packet. -/
theorem Replied.of_transport {c b : Connection} {m : MsgType} {r : Bytes}
    (hmem : m ∈ MsgType.transport) : Replied p c b none (m.code :: r) :=
  .transport rfl hmem

theorem Handles.adds (h : Handles p c c') : Adds (Replied p c.now) c.log c'.log := by
  have hkexinit : ∀ b payload, IsMsg .kexinit payload → Replied p c.now b none payload :=
    fun b payload hm => .transport hm (by decide)
  have hnewkeys : ∀ b, Replied p c.now b none Msg.newkeys := fun b => .of_transport (by decide)
  cases h with
  | skip hr h => exact hr.adds
  | answer hr h hq => exact hr.adds.trans (hq.adds (.answer hr.control hr.channels h hq.fits))
  | kexinitServer hr hm hrole hp hj hk hn => exact hr.adds.trans (hj.adds hkexinit)
  | kexinitClient hr hm hrole hp hj hk hn hpub hq =>
    exact (hr.adds.trans (hj.adds hkexinit)).trans (hq.adds (.of_transport (by decide)))
  | ecdhInit hr hrole hm hcfg hx hz hq hs =>
    exact (hr.adds.trans (hq.adds (.of_transport (by decide)))).trans (hs.adds (hnewkeys _))
  | ecdhReply hr hrole hm hpub hsec hx hks hsig hz hs => exact hr.adds.trans (hs.adds (hnewkeys _))
  | newkeysFirst hr hm hpk hf hg =>
    refine (hr.adds.trans (.other rfl)).trans (hg.adds ?_ ?_)
    · exact .of_transport (by decide)
    · exact .of_transport (by decide)
  | newkeysAgain hr hm hpk hf => exact hr.adds.trans (.other rfl)
  | userauthSuccess hr hm => exact (hr.adds.trans (.other rfl)).trans (.other rfl)
  | authAccept hr hrole hcfg hm hok hq =>
    have hrole' := (congrArg (·.role) hr.settings).symm.trans hrole
    have hcfg' := (congrArg (·.server) hr.settings).symm.trans hcfg
    have hsent := hq.adds (P := Replied p c.now) (.accepted hrole' hcfg' hm hok hr.stage)
    exact (((hr.adds.trans (.other rfl)).trans (.other rfl)).trans hsent).trans (.other rfl)
  | authReject hr hrole hcfg hm hbad hd =>
    have hrole' := (congrArg (·.role) hr.settings).symm.trans hrole
    have hcfg' := (congrArg (·.server) hr.settings).symm.trans hcfg
    have hfails := congrArg (·.conn.authFails) hr.control
    have hauthed := congrArg (·.conn.authed) hr.control
    have hsent := hd.adds (P := Replied p c.now)
      (fun hlt => .rejected hrole' hcfg' hm hbad (hfails ▸ hlt) hauthed hr.stage)
      fun _ _ => .of_transport (by decide)
    exact (hr.adds.trans (.other rfl)).trans hsent
  | authOther hr hrole hcfg hm hd ho =>
    have hrole' := (congrArg (·.role) hr.settings).symm.trans hrole
    have hcfg' := (congrArg (·.server) hr.settings).symm.trans hcfg
    have hfails := congrArg (·.conn.authFails) hr.control
    have hauthed := congrArg (·.conn.authed) hr.control
    exact hr.adds.trans (hd.adds
      (fun hlt => .refused hrole' hcfg' hm (hfails ▸ hlt) hauthed hr.stage ho)
      fun _ _ => .of_transport (by decide))
  | disconnect hr hm => exact hr.adds.trans (.other rfl)
  | openSession hr hm hauth ha => exact (hr.adds.trans ha.adds).trans (.other rfl)
  | openDirect hr hm hauth ha => exact (hr.adds.trans ha.adds).trans (.other rfl)
  | openConfirm hr hm hch => exact hr.adds.trans (.other rfl)
  | openFail hr hm => exact (hr.adds.trans (adds_withoutChannel _ _)).trans (.other rfl)
  | windowAdjust hr hm hch => exact hr.adds
  | deliver hr hm hch hw => exact hr.adds.trans (.other rfl)
  | peerEof hr hm hch => exact hr.adds.trans (.other rfl)
  | peerEofUnknown hr hm hch => exact hr.adds.trans (.other rfl)
  | peerClose hr hm hch => exact hr.adds

theorem Faults.adds (h : Faults c c') : Adds P c.log c'.log := by
  cases h with
  | reject h => exact h.adds
  | spoil h hm => exact h.adds
  | drop hkind => exact .refl _ _
  | identBad h => exact .refl _ _

/-- Where a new message of a move comes from: a step, or a packet handled in
    state `c`. -/
inductive Sent (c : Connection) (log : List Obs) (b : Connection) (owner : Option UInt32)
    (payload : Bytes) : Prop where
  | step {k : Cause} (h : StepSent c k b owner payload)
  | reply {p : Bytes} (hp : Obs.handled c p ∈ log) (h : Replied p c b owner payload)

theorem Move.adds (h : Move c c') : Adds (Sent c.now c'.log) c.log c'.log := by
  cases h with
  | quiet h =>
    cases h with
    | step h => exact h.adds.mono fun _ _ _ h => .step h
    | handle h =>
      have hp := h.log.subset (List.mem_append_right _ (List.mem_singleton.mpr rfl))
      exact h.adds.mono fun _ _ _ h => .reply hp h
    | identWait h hno => exact .refl _ _
    | identDone h hs => exact .refl _ _
  | fault h => exact h.adds
  | recv bytes => exact .refl _ _
  | own h => exact h.adds.mono fun _ _ _ h => .step h

-- ============================================================================
-- The messages tell the stage
-- ============================================================================

/-- The stage after the observation `o`. -/
def Stage.next (s : Stage) : Obs → Stage
  | .queued _ _ payload _ =>
      if IsMsg .kexinit payload then .offered else if IsMsg .newkeys payload then .switched else s
  | .kexCompleted _ => .idle
  | _ => s

/-- The messages queued in `l`, each with the state in which it was sealed and
    with the stage that the observations before it tell; `s` is the stage at the
    start. -/
def staged (s : Stage) : List Obs → List (Stage × Connection × Bytes)
  | [] => []
  | .queued b owner payload wire :: l =>
      (s, b, payload) :: staged (s.next (.queued b owner payload wire)) l
  | o :: l => staged (s.next o) l

omit [CryptoLib] in
theorem staged_append (s : Stage) (l l' : List Obs) :
    staged s (l ++ l') = staged s l ++ staged (l.foldl Stage.next s) l' := by
  induction l generalizing s with
  | nil => rfl
  | cons o l ih =>
    cases o with
    | queued b owner payload wire => exact congrArg (_ :: ·) (ih _)
    | _ => exact ih _

omit [CryptoLib] in
theorem mem_of_staged {s : Stage} {l : List Obs} {x : Stage × Connection × Bytes}
    (h : x ∈ staged s l) : ∃ owner wire, Obs.queued x.2.1 owner x.2.2 wire ∈ l := by
  induction l generalizing s with
  | nil => exact absurd h List.not_mem_nil
  | cons o l ih =>
    have htail : x ∈ staged (s.next o) l → ∃ owner wire, Obs.queued x.2.1 owner x.2.2 wire ∈ o :: l :=
      fun h => (ih h).imp fun owner => Exists.imp fun wire => List.mem_cons_of_mem o
    cases o with
    | queued b owner payload wire =>
      rcases List.mem_cons.mp h with rfl | h
      · exact ⟨owner, wire, List.mem_cons_self⟩
      · exact htail h
    | _ => exact htail h

/-- The observations tell the stage of the connection, now and at every message
    queued before. -/
structure Staged (c : Conn) : Prop where
  now : c.log.foldl Stage.next .idle = c.now.stage
  sent : ∀ x ∈ staged .idle c.log, x.1 = x.2.1.stage

/-- Neither KEXINIT nor NEWKEYS. -/
def Plain (payload : Bytes) : Prop := ¬IsMsg .kexinit payload ∧ ¬IsMsg .newkeys payload

omit [CryptoLib] in
theorem plain_cons {m : MsgType} {r : Bytes} (h : m ≠ .kexinit ∧ m ≠ .newkeys) :
    Plain (m.code :: r) :=
  ⟨fun hm => h.1 (IsMsg.unique (p := m.code :: r) rfl hm),
    fun hm => h.2 (IsMsg.unique (p := m.code :: r) rfl hm)⟩

namespace Staged

omit [CryptoLib] in
theorem update {x : Connection} (h : Staged c) (hx : x.stage = c.now.stage) :
    Staged ⟨x, c.log⟩ :=
  ⟨h.now.trans hx.symm, h.sent⟩

omit [CryptoLib] in
/-- One observation more. -/
theorem note {x : Connection} {o : Obs} (h : Staged c) (ho : o.isQueued = false)
    (hx : Stage.next c.now.stage o = x.stage) : Staged ⟨x, c.log ++ [o]⟩ := by
  refine ⟨?_, ?_⟩
  · rw [List.foldl_append, h.now]
    exact hx
  · have hnone : staged c.now.stage [o] = [] := by
      cases o with
      | queued b owner payload wire => cases ho
      | _ => rfl
    rw [staged_append, h.now, hnone, List.append_nil]
    exact h.sent

omit [CryptoLib] in
/-- One message more, sealed in a state of the same stage. -/
theorem message {x b : Connection} {wire : Bytes} (h : Staged c) (hb : b.stage = c.now.stage)
    (hx : Stage.next c.now.stage (.queued b owner payload wire) = x.stage) :
    Staged ⟨x, c.log ++ [.queued b owner payload wire]⟩ := by
  refine ⟨?_, ?_⟩
  · rw [List.foldl_append, h.now]
    exact hx
  · rw [staged_append, h.now]
    intro y hy
    rcases List.mem_append.mp hy with hy | hy
    · exact h.sent y hy
    · cases List.mem_singleton.mp hy
      exact hb.symm

theorem queues (h : Staged c) (hq : Queues owner payload c c') (hp : Plain payload) :
    Staged c' := by
  obtain ⟨wire, hlog⟩ := hq.log
  have hs := stage_of_control hq.control
  have hnext : Stage.next c.now.stage (.queued c.now owner payload wire) = c'.now.stage := by
    rw [Stage.next, if_neg hp.1, if_neg hp.2, hs]
  have h' := h.message rfl hnext
  rw [← hlog] at h'
  exact h'

theorem sends (h : Staged c) (hs : Sends owner payload c c') (hp : Plain payload) : Staged c' := by
  rcases hs with hq | ⟨-, hd⟩
  · exact h.queues hq hp
  · cases hd with
    | mk r => exact h.update rfl

omit [CryptoLib] in
theorem event (h : Staged c) (ev : Event) : Staged (withEvent c ev) := h.note rfl rfl

omit [CryptoLib] in
theorem withoutChannel (h : Staged c) (id : UInt32) : Staged (withoutChannel c id) := by
  unfold Ssproxy.withoutChannel
  split
  · exact h.note rfl rfl
  · rw [List.append_nil]
    exact h.update rfl

omit [CryptoLib] in
theorem allocates {ch : Channel} {id : UInt32} (h : Staged c) (ha : Allocates ch c id c') :
    Staged c' := by
  cases ha with
  | mk ht => exact h.note rfl rfl

theorem starts (h : Staged c) (hs : Starts c c') : Staged c' := by
  cases hs with
  | mk hq =>
    obtain ⟨wire, hlog⟩ := hq.log
    rw [hlog]
    refine h.message rfl ?_
    rw [Stage.next, if_pos (isMsg_ownKexInit _)]
    rfl

theorem switches {pk : PendingKeys} (h : Staged c) (hs : Switches pk c c')
    (hk : c.now.kex.isSome = true) : Staged c' := by
  cases hs with
  | mk hpk hq =>
    obtain ⟨wire, hlog⟩ := hq.log
    rw [hlog]
    refine h.message rfl ?_
    have hk' : c.now.kex = _ := (congrArg (·.conn.kex) hq.control).symm
    rw [hk'] at hk
    rw [Stage.next, if_neg (by decide), if_pos (by decide)]
    exact (if_pos hk).symm

theorem hangsUp {reason : UInt32} {msg : String} (h : Staged c) (hh : HangsUp reason msg c c') :
    Staged c' := by
  cases hh with
  | again hc => exact h
  | first hc hs => exact (h.sends hs (plain_cons (by decide))).note rfl rfl

theorem denies {cfg : ServerConfig} (h : Staged c) (hd : Denies cfg c c') : Staged c' := by
  cases hd with
  | soft hlt hq => exact h.queues hq (plain_cons (by decide))
  | hard hge hh => exact h.hangsUp hh

theorem greets (h : Staged c) (hg : Greets c c') : Staged c' := by
  cases hg with
  | silent hr he => exact h
  | extInfo hr he hq => exact h.queues hq (plain_cons (by decide))
  | service hr hq => exact h.queues hq (plain_cons (by decide))

theorem joins (h : Staged c) (hj : Joins c c') : Staged c' := by
  cases hj with
  | running hk => exact h
  | started hk hs => exact h.starts hs

theorem receives (h : Staged c) (hr : Receives p c c1) : Staged c1 := by
  have h' : Staged ⟨c1.now, c.log ++ [.handled c.now p]⟩ := h.note rfl hr.stage.symm
  rw [← hr.log] at h'
  exact h'

theorem sendsData {id : UInt32} {chunks : List Bytes} (h : Staged c)
    (hs : SendsData id c chunks c') : Staged c' := by
  induction hs with
  | done c => exact h
  | defer hch hne hallow hgate htail ih => exact ih (h.update rfl)
  | wire hch hne hallow hgate hr hq htail ih =>
    exact ih (Staged.queues (c := Ssproxy.withChannel _ _ _) (h.update rfl) hq
      (plain_cons (by decide)))

end Staged

theorem Step.staged (hm : Step k c c') (h : Staged c) : Staged c' := by
  cases hm with
  | pull =>
    obtain ⟨_, _, _, _, he⟩ := c.now.pullCurrentOut_eq
    rw [he]
    exact h.update rfl
  | @drain _ b m hb hm =>
    obtain ⟨_, _, _, _, _, he⟩ := c.now.pullDrained_eq b (min m b.length)
    rw [he]
    exact h.update rfl
  | draw hd =>
    cases hd with
    | mk r => exact h.update rfl
  | startKex hk hs hstart => exact h.starts hstart
  | hangUp hh => exact h.hangsUp hh
  | grant hgate hch hadd hpos hr hq =>
    exact Staged.queues (c := withChannel _ _ _) (h.update rfl) hq (plain_cons (by decide))
  | sendData hs hn hdata => exact (h.sendsData hs).note rfl rfl
  | sendLost hs hch hgate hr hsoft hhard => exact (h.sendsData hs).update rfl
  | flush hch hcan hp hne hq =>
    exact Staged.queues (c := withChannel _ _ _) (h.update rfl) hq (plain_cons (by decide))
  | askEof hch he hc => exact h.note rfl rfl
  | askClose hgate hch hc => exact h.note rfl rfl
  | closeAgain hch hc hw => exact h.note rfl rfl
  | closeSilent hgate hch hc hw hr => exact h.note rfl rfl
  | closeNow hgate hch hc hw hr hq => exact (h.note rfl rfl).queues hq (plain_cons (by decide))
  | emitEof hgate hch he hw hr hq =>
    exact Staged.queues (c := withChannel _ _ _) (h.update rfl) hq (plain_cons (by decide))
  | emitClose hgate hch hc hw hr hq =>
    exact Staged.queues (c := withChannel _ _ _) (h.update rfl) hq (plain_cons (by decide))
  | freeClosed hch hg hw => exact h.withoutChannel _
  | closeEvent id => exact h.event _
  | confirm hch hr hq =>
    exact Staged.queues (c := withChannel _ _ _) (h.update rfl) hq (plain_cons (by decide))
  | failOpen hch hr hs => exact (h.withoutChannel _).sends hs (plain_cons (by decide))
  | openLocal hrole hauth ha hs => exact (h.allocates ha).sends hs (plain_cons (by decide))
  | popEvent | roundRobin | tick | consume | grantSilent | flushLost | emitEofSilent
  | emitCloseSilent | confirmSilent => exact h.update rfl

omit [CryptoLib] in
theorem Answers.plain {c : Connection} (h : Answers c p owner payload) : Plain payload := by
  cases h with
  | «global» hm hw hr =>
    rcases hr with rfl | rfl
    · exact plain_cons (by decide)
    · exact plain_cons (by decide)
  | request hm hw hch hr ht =>
    rcases ht with rfl | rfl
    · exact plain_cons (by decide)
    · exact plain_cons (by decide)
  | service | credentials | unknownType | ping | unknown => exact plain_cons (by decide)

theorem Handles.staged (hm : Handles p c c') (h : Staged c) : Staged c' := by
  cases hm with
  | skip hr hi => exact h.receives hr
  | answer hr ha hq => exact (h.receives hr).queues hq ha.plain
  | kexinitServer hr hm hrole hp hj hk hn =>
    exact ((h.receives hr).joins hj).update (stage_congr (by rw [hk]; rfl) rfl)
  | @kexinitClient c1 c2 c' q theirs k c2s s2c pub hr hm hrole hp hj hk hn hpub hq =>
    have hrec : Staged ⟨c2.now.recorded k theirs c2s s2c, c2.log⟩ :=
      ((h.receives hr).joins hj).update (stage_congr (by rw [hk]; rfl) rfl)
    exact hrec.queues hq (plain_cons (by decide))
  | ecdhInit hr hrole hm hcfg hx hz hq hs =>
    have hkex : _ = _ := (congrArg (·.conn.kex) hq.control).trans hx.kex
    refine Staged.switches (Staged.queues ((h.receives hr).update ?_) hq (plain_cons (by decide)))
      hs (Option.isSome_iff_exists.mpr ⟨_, hkex⟩)
    rfl
  | ecdhReply hr hrole hm hpub hsec hx hks hsig hz hs =>
    refine Staged.switches ((h.receives hr).update ?_) hs rfl
    exact stage_congr (by rw [hx.kex]; rfl) rfl
  | newkeysFirst hr hm hpk hf hg => exact Staged.greets ((h.receives hr).note rfl rfl) hg
  | newkeysAgain hr hm hpk hf => exact (h.receives hr).note rfl rfl
  | userauthSuccess hr hm => exact Staged.event ((h.receives hr).note rfl rfl) _
  | @authAccept c1 c2 cfg user password hr hrole hcfg hm hok hq =>
    have hchecked : Staged ⟨c1.now, c1.log ++ [.passwordChecked user password true]⟩ :=
      (h.receives hr).note rfl rfl
    exact Staged.event (Staged.queues (hchecked.note rfl rfl) hq (plain_cons (by decide))) _
  | authReject hr hrole hcfg hm hbad hd => exact Staged.denies ((h.receives hr).note rfl rfl) hd
  | authOther hr hrole hcfg hm hd => exact (h.receives hr).denies hd
  | disconnect hr hm =>
    refine Staged.event ((h.receives hr).update ?_) _
    rfl
  | openSession hr hm hauth ha => exact ((h.receives hr).allocates ha).event _
  | openDirect hr hm hauth ha => exact ((h.receives hr).allocates ha).event _
  | openConfirm hr hm hch =>
    refine Staged.event ((h.receives hr).update ?_) _
    rfl
  | openFail hr hm => exact ((h.receives hr).withoutChannel _).event _
  | windowAdjust hr hm hch => exact (h.receives hr).update rfl
  | deliver hr hm hch hw =>
    refine Staged.event ((h.receives hr).update ?_) _
    rfl
  | peerEof hr hm hch =>
    refine Staged.event ((h.receives hr).update ?_) _
    rfl
  | peerEofUnknown hr hm hch => exact (h.receives hr).event _
  | peerClose hr hm hch => exact (h.receives hr).update rfl

theorem Faults.staged (hm : Faults c c') (h : Staged c) : Staged c' := by
  cases hm with
  | reject hr => exact h.receives hr
  | spoil hr hm =>
    exact (h.receives hr).update (stage_congr Option.isSome_map rfl)
  | drop hkind => exact h.update rfl
  | identBad hid => exact h.update rfl

theorem Move.staged (hm : Move c c') (h : Staged c) : Staged c' := by
  cases hm with
  | quiet hq =>
    cases hq with
    | step hs => exact hs.staged h
    | handle hh => exact hh.staged h
    | identWait hid hno => exact h.update rfl
    | identDone hid hs => exact h.update rfl
  | fault hf => exact hf.staged h
  | recv bytes => exact h.update rfl
  | own hs => exact hs.staged h

namespace Setup

omit [CryptoLib] in
theorem blank_staged (setup : Setup) (rng : Rng) : Staged ⟨setup.blank rng, []⟩ := by
  refine ⟨?_, fun x hx => absurd hx List.not_mem_nil⟩
  cases setup <;> rfl

/-- In every run the messages queued so far tell the stage. -/
theorem run_staged {setup : Setup} {rng : Rng} {calls : List Call} {c : Conn}
    (hrun : setup.run rng calls = .ok () c) : Staged c := by
  refine run_invariant (G := fun _ => True) ?_ ?_ hrun fun _ _ => trivial
  · exact fun c0 h0 => (setup.blank_staged rng).starts h0
  · exact fun c c' _ h hm _ => hm.staged h

end Setup

end Ssproxy
