/-
  Ssproxy.Machine.Runs

  What every sequence of moves keeps: the settings a connection was made with
  do not change, its history only grows, and only the handling of packets
  touches the receiving side.
-/

import Ssproxy.Machine.Invariant

namespace Ssproxy

open Lib Wire Connection Relation

/-- What a connection was made with. -/
structure Settings where
  role : Role
  server : Option ServerConfig
  client : Option ClientConfig
  identLocal : String
  writeSoft : Nat
  writeHard : Nat

/-- The peer's ident line. -/
structure Ident where
  peer : Option String
  done : Bool

/-- The receiving side. -/
structure Inbound where
  acc : Bytes
  buf : Bytes
  seq : UInt32
  cipher : DirectionKeys
  installs : Nat

namespace Connection

def settings (c : Connection) : Settings :=
  ⟨c.role, c.server, c.client, c.identLocal, c.writeSoft, c.writeHard⟩

def ident (c : Connection) : Ident := ⟨c.identPeer, c.identInDone⟩

def inbound (c : Connection) : Inbound :=
  ⟨c.identAcc, c.readBuf, c.recvSeq, c.recvCipher, c.recvInstalls⟩

end Connection

/-- Observations that have nothing to do with what the peer sends. -/
def Obs.Routine : Obs → Prop
  | handled _ _ | passwordChecked _ _ _ | authenticated _ | kexCompleted _ => False
  | _ => True

/-- Only routine observations were added. -/
def Grows (l l' : List Obs) : Prop := ∃ new, l' = l ++ new ∧ ∀ o ∈ new, o.Routine

namespace Grows

variable {l l' l'' : List Obs}

theorem refl (l : List Obs) : Grows l l := ⟨[], by simp⟩

theorem trans (h : Grows l l') (h' : Grows l' l'') : Grows l l'' := by
  obtain ⟨new, rfl, hnew⟩ := h
  obtain ⟨new', rfl, hnew'⟩ := h'
  refine ⟨new ++ new', by simp, fun o ho => ?_⟩
  exact (List.mem_append.mp ho).elim (hnew o) (hnew' o)

theorem single {o : Obs} (h : o.Routine) : Grows l (l ++ [o]) :=
  ⟨[o], rfl, fun o' ho => by rw [List.mem_singleton.mp ho]; exact h⟩

theorem isPrefix (h : Grows l l') : l <+: l' := by
  obtain ⟨new, rfl, -⟩ := h
  exact List.prefix_append _ _

end Grows

/-- A packet was handled. -/
def Obs.isHandled : Obs → Bool
  | handled _ _ => true
  | _ => false

/-- What was added since, no packet among it. -/
def Later (l l' : List Obs) : Prop := ∃ new, l' = l ++ new ∧ ∀ o ∈ new, o.isHandled = false

namespace Later

variable {l l' l'' : List Obs}

theorem refl (l : List Obs) : Later l l := ⟨[], by simp⟩

theorem trans (h : Later l l') (h' : Later l' l'') : Later l l'' := by
  obtain ⟨new, rfl, hnew⟩ := h
  obtain ⟨new', rfl, hnew'⟩ := h'
  refine ⟨new ++ new', by simp, fun o ho => ?_⟩
  exact (List.mem_append.mp ho).elim (hnew o) (hnew' o)

theorem single {o : Obs} (h : o.isHandled = false) : Later l (l ++ [o]) :=
  ⟨[o], rfl, fun o' ho => by rw [List.mem_singleton.mp ho]; exact h⟩

theorem isPrefix (h : Later l l') : l <+: l' := by
  obtain ⟨new, rfl, -⟩ := h
  exact List.prefix_append _ _

theorem mem_handled {b : Connection} {p : Bytes} (h : Later l l') (hmem : Obs.handled b p ∈ l') :
    Obs.handled b p ∈ l := by
  obtain ⟨new, rfl, hnew⟩ := h
  rcases List.mem_append.mp hmem with hmem | hmem
  · exact hmem
  · cases hnew _ hmem

end Later

theorem Grows.later {l l' : List Obs} (h : Grows l l') : Later l l' := by
  obtain ⟨new, hl, hnew⟩ := h
  refine ⟨new, hl, fun o ho => ?_⟩
  cases o with
  | handled b p => exact (hnew _ ho).elim
  | _ => rfl

/-- The packets handled so far, each with the state in which it arrived. -/
def handledPackets (l : List Obs) : List (Connection × Bytes) :=
  l.filterMap fun o => match o with
    | .handled before p => some (before, p)
    | _ => none

theorem mem_handledPackets {l : List Obs} {x : Connection × Bytes} :
    x ∈ handledPackets l ↔ Obs.handled x.1 x.2 ∈ l := by
  unfold handledPackets
  rw [List.mem_filterMap]
  constructor
  · rintro ⟨o, ho, hx⟩
    cases o with
    | handled before p =>
      cases hx
      exact ho
    | _ => cases hx
  · intro h
    exact ⟨_, h, rfl⟩

/-- The payloads handled so far. -/
def payloads (l : List Obs) : List Bytes := (handledPackets l).map (·.2)

theorem payloads_append (l l' : List Obs) : payloads (l ++ l') = payloads l ++ payloads l' := by
  simp [payloads, handledPackets]

/-- `c'` comes after `c`, with nothing received in between. -/
structure Extends (c c' : Conn) : Prop where
  settings : c'.now.settings = c.now.settings
  ident : c'.now.ident = c.now.ident
  inbound : c'.now.inbound = c.now.inbound
  log : Grows c.log c'.log

namespace Extends

variable {c c' c'' : Conn}

theorem refl (c : Conn) : Extends c c := ⟨rfl, rfl, rfl, Grows.refl _⟩

theorem trans (h : Extends c c') (h' : Extends c' c'') : Extends c c'' :=
  ⟨h'.settings.trans h.settings, h'.ident.trans h.ident, h'.inbound.trans h.inbound,
    h.log.trans h'.log⟩

end Extends

variable [CryptoLib] {p payload : Bytes} {c c' c1 : Conn} {owner : Option UInt32}
  {k : Cause}

-- ============================================================================
-- Effects
-- ============================================================================

theorem Queues.extends (h : Queues owner payload c c') : Extends c c' := by
  cases h
  exact ⟨rfl, rfl, rfl, Grows.single trivial⟩

omit [CryptoLib] in
theorem Draws.extends (h : Draws c c') : Extends c c' := by
  cases h
  exact ⟨rfl, rfl, rfl, Grows.refl _⟩

theorem Sends.extends (h : Sends owner payload c c') : Extends c c' := by
  rcases h with h | ⟨-, h⟩
  · exact h.extends
  · exact h.extends

theorem SendsData.extends {id : UInt32} {chunks : List Bytes} (h : SendsData id c chunks c') :
    Extends c c' := by
  induction h with
  | done c => exact .refl c
  | defer hch hne hallow hgate htail ih => exact ⟨ih.settings, ih.ident, ih.inbound, ih.log⟩
  | wire hch hne hallow hgate hr hq htail ih =>
    have h := hq.extends.trans ih
    exact ⟨h.settings, h.ident, h.inbound, h.log⟩

omit [CryptoLib] in
theorem Allocates.extends {ch : Channel} {id : UInt32} (h : Allocates ch c id c') :
    Extends c c' := by
  cases h
  exact ⟨rfl, rfl, rfl, Grows.single trivial⟩

theorem Starts.extends (h : Starts c c') : Extends c c' := by
  cases h with
  | mk hq =>
    have h := hq.extends
    exact ⟨h.settings, h.ident, h.inbound, h.log⟩

theorem Joins.extends (h : Joins c c') : Extends c c' := by
  cases h with
  | running hk => exact .refl c
  | started hk hs => exact hs.extends

theorem Switches.extends {pk : PendingKeys} (h : Switches pk c c') : Extends c c' := by
  cases h with
  | mk hpk hq =>
    have h := hq.extends
    exact ⟨h.settings, h.ident, h.inbound, h.log⟩

theorem HangsUp.extends {reason : UInt32} {msg : String} (h : HangsUp reason msg c c') :
    Extends c c' := by
  cases h with
  | again hc => exact .refl c
  | first hc hs =>
    have h := hs.extends
    exact ⟨h.settings, h.ident, h.inbound, h.log.trans (Grows.single trivial)⟩

theorem Denies.extends {cfg : ServerConfig} (h : Denies cfg c c') : Extends c c' := by
  cases h with
  | soft hlt hq => exact hq.extends
  | hard hge hh => exact hh.extends

theorem Greets.extends (h : Greets c c') : Extends c c' := by
  cases h with
  | silent hr he => exact .refl c
  | extInfo hr he hq => exact hq.extends
  | service hr hq => exact hq.extends

omit [CryptoLib] in
theorem extends_withoutChannel (c : Conn) (id : UInt32) : Extends c (withoutChannel c id) :=
  ⟨rfl, rfl, rfl, by
    unfold withoutChannel
    split
    · exact Grows.single trivial
    · rw [List.append_nil]
      exact Grows.refl _⟩

omit [CryptoLib] in
theorem extends_withEvent (c : Conn) (ev : Event) : Extends c (withEvent c ev) :=
  ⟨rfl, rfl, rfl, Grows.single trivial⟩

-- ============================================================================
-- Moves
-- ============================================================================

theorem Step.extends (h : Step k c c') : Extends c c' := by
  -- a step that changes a channel and then queues a message
  have hchan : ∀ {id ch owner payload}, Queues owner payload (withChannel c id ch) c' →
      Extends c c' := by
    intro id ch owner payload hq
    have h := hq.extends
    exact ⟨h.settings, h.ident, h.inbound, h.log⟩
  cases h with
  | pull =>
    obtain ⟨_, _, _, _, h⟩ := c.now.pullCurrentOut_eq
    rw [h]
    exact ⟨rfl, rfl, rfl, Grows.refl _⟩
  | @drain _ b m hb hm =>
    obtain ⟨_, _, _, _, _, h⟩ := c.now.pullDrained_eq b (min m b.length)
    rw [h]
    exact ⟨rfl, rfl, rfl, Grows.refl _⟩
  | draw h => exact h.extends
  | startKex hk hs h => exact h.extends
  | hangUp h => exact h.extends
  | grant hgate hch hadd hpos hr hq => exact hchan hq
  | sendData h hn hdata =>
    have h := h.extends
    exact ⟨h.settings, h.ident, h.inbound, h.log.trans (Grows.single trivial)⟩
  | sendLost h hch hgate hr hsoft hhard =>
    have h := h.extends
    exact ⟨h.settings, h.ident, h.inbound, h.log⟩
  | flush hch hcan hp hne hq => exact hchan hq
  | askEof hch he hc => exact ⟨rfl, rfl, rfl, Grows.single trivial⟩
  | askClose hgate hch hc => exact ⟨rfl, rfl, rfl, Grows.single trivial⟩
  | closeAgain hch hc hw => exact ⟨rfl, rfl, rfl, Grows.single trivial⟩
  | closeSilent hgate hch hc hw hr => exact ⟨rfl, rfl, rfl, Grows.single trivial⟩
  | @closeNow _ _ id ch r hgate hch hc hw hr hq =>
    have h := hq.extends
    have hend : Grows c.log (c.log ++ [.ended c.now id true]) := Grows.single trivial
    exact ⟨h.settings, h.ident, h.inbound, hend.trans h.log⟩
  | emitEof hgate hch he hw hr hq => exact hchan hq
  | emitClose hgate hch hc hw hr hq => exact hchan hq
  | freeClosed hch hg hw => exact extends_withoutChannel _ _
  | closeEvent id => exact extends_withEvent _ _
  | confirm hch hr hq => exact hchan hq
  | failOpen hch hr hs => exact (extends_withoutChannel _ _).trans hs.extends
  | openLocal hrole hauth ha hs => exact ha.extends.trans hs.extends
  | _ => exact ⟨rfl, rfl, rfl, Grows.refl _⟩

theorem Trail.extends {P : Cause → Prop} (h : Trail P c c') : Extends c c' := by
  induction h with
  | refl => exact .refl c
  | tail _ hstep ih =>
    obtain ⟨k, -, hk⟩ := hstep
    exact ih.trans hk.extends

theorem Trail.wellFormed {P : Cause → Prop} (h : Trail P c c') (hwf : WellFormed c) : WellFormed c' := by
  induction h with
  | refl => exact hwf
  | tail _ hstep ih =>
    obtain ⟨k, -, hk⟩ := hstep
    exact hk.wellFormed ih

theorem Steps.trail (h : Steps c c') : Trail Cause.Inner c c' :=
  ReflTransGen.mono (fun _ _ hs => ⟨.own, trivial, hs⟩) c c' h

theorem StepsAt.trail {id : UInt32} (h : StepsAt id c c') : Trail Cause.Inner c c' :=
  ReflTransGen.mono (fun _ _ hs => ⟨.own, trivial, hs.1⟩) c c' h

theorem Adjusts.trail {id : UInt32} (h : Adjusts id c c') : Trail Cause.Inner c c' := by
  cases h with
  | none => exact .refl
  | grant h => exact .single ⟨.adjust id, trivial, h⟩

theorem Replays.trail {ids : List UInt32} (h : Replays ids c c') : Trail Cause.Inner c c' := by
  induction h with
  | done c => exact .refl
  | next ha hs ht ih => exact (ha.trail.trans (StepsAt.trail hs)).trans ih

theorem Settles.trail (h : Settles c c') : Trail Cause.Inner c c' := by
  cases h with
  | steps hs => exact hs.trail
  | replay hlog hf hch hr hs => exact hr.trail.trans hs.trail

theorem Receives.settings (h : Receives p c c1) : c1.now.settings = c.now.settings :=
  congrArg (·.conn.settings) h.control

theorem Receives.ident (h : Receives p c c1) : c1.now.ident = c.now.ident :=
  congrArg (·.conn.ident) h.control

/-- What a handler keeps once its packet was received. -/
structure Handling (c c' : Conn) : Prop where
  settings : c'.now.settings = c.now.settings
  ident : c'.now.ident = c.now.ident
  buf : c'.now.readBuf = c.now.readBuf
  seq : c'.now.recvSeq = c.now.recvSeq
  log : Later c.log c'.log

omit [CryptoLib] in
theorem Extends.handling (h : Extends c c') : Handling c c' :=
  ⟨h.settings, h.ident, congrArg Inbound.buf h.inbound, congrArg Inbound.seq h.inbound, h.log.later⟩

theorem Handles.handling (h : Handles p c c') : ∃ c1, Receives p c c1 ∧ Handling c1 c' := by
  cases h with
  | skip hr h => exact ⟨_, hr, (Extends.refl _).handling⟩
  | answer hr h hq => exact ⟨_, hr, hq.extends.handling⟩
  | kexinitServer hr hm hrole hp hj hk hn =>
    have h := hj.extends.handling
    exact ⟨_, hr, h.settings, h.ident, h.buf, h.seq, h.log⟩
  | kexinitClient hr hm hrole hp hj hk hn hpub hq =>
    have h := hj.extends.handling
    have h' := hq.extends.handling
    exact ⟨_, hr, h'.settings.trans h.settings, h'.ident.trans h.ident, h'.buf.trans h.buf,
      h'.seq.trans h.seq, h.log.trans h'.log⟩
  | ecdhInit hr hrole hm hcfg hx hz hq hs =>
    have h := (hq.extends.trans hs.extends).handling
    exact ⟨_, hr, h.settings, h.ident, h.buf, h.seq, h.log⟩
  | ecdhReply hr hrole hm hpub hsec hx hks hsig hz hs =>
    have h := hs.extends.handling
    exact ⟨_, hr, h.settings, h.ident, h.buf, h.seq, h.log⟩
  | newkeysFirst hr hm hpk hf hg =>
    have h := hg.extends.handling
    exact ⟨_, hr, h.settings, h.ident, h.buf, h.seq, (Later.single rfl).trans h.log⟩
  | newkeysAgain hr hm hpk hf => exact ⟨_, hr, rfl, rfl, rfl, rfl, .single rfl⟩
  | userauthSuccess hr hm =>
    refine ⟨_, hr, rfl, rfl, rfl, rfl, ?_⟩
    exact (Later.single rfl).trans (.single rfl)
  | @authAccept c1 c2 cfg user password hr hrole hcfg hm hok hq =>
    have h := (hq.extends.trans (extends_withEvent c2 (.handshakeComplete user))).handling
    refine ⟨_, hr, h.settings, h.ident, h.buf, h.seq, ?_⟩
    exact ((Later.single rfl).trans (.single rfl)).trans h.log
  | authReject hr hrole hcfg hm hbad hd =>
    have h := hd.extends.handling
    exact ⟨_, hr, h.settings, h.ident, h.buf, h.seq, (Later.single rfl).trans h.log⟩
  | authOther hr hrole hcfg hm hd => exact ⟨_, hr, hd.extends.handling⟩
  | disconnect hr hm => exact ⟨_, hr, rfl, rfl, rfl, rfl, .single rfl⟩
  | openSession hr hm hauth ha =>
    exact ⟨_, hr, (ha.extends.trans (extends_withEvent _ _)).handling⟩
  | openDirect hr hm hauth ha =>
    exact ⟨_, hr, (ha.extends.trans (extends_withEvent _ _)).handling⟩
  | openConfirm hr hm hch => exact ⟨_, hr, rfl, rfl, rfl, rfl, .single rfl⟩
  | openFail hr hm =>
    exact ⟨_, hr, ((extends_withoutChannel _ _).trans (extends_withEvent _ _)).handling⟩
  | windowAdjust hr hm hch => exact ⟨_, hr, rfl, rfl, rfl, rfl, .refl _⟩
  | deliver hr hm hch hw => exact ⟨_, hr, rfl, rfl, rfl, rfl, .single rfl⟩
  | peerEof hr hm hch => exact ⟨_, hr, rfl, rfl, rfl, rfl, .single rfl⟩
  | peerEofUnknown hr hm hch => exact ⟨_, hr, (extends_withEvent _ _).handling⟩
  | peerClose hr hm hch => exact ⟨_, hr, rfl, rfl, rfl, rfl, .refl _⟩

theorem Handles.ident (h : Handles p c c') : c'.now.ident = c.now.ident := by
  obtain ⟨c1, hr, h1⟩ := h.handling
  exact h1.ident.trans hr.ident

theorem Handles.log (h : Handles p c c') : c.log ++ [.handled c.now p] <+: c'.log := by
  obtain ⟨c1, hr, h1⟩ := h.handling
  rw [← hr.log]
  exact h1.log.isPrefix

theorem Handles.isPrefix (h : Handles p c c') : c.log <+: c'.log :=
  (List.prefix_append _ _).trans h.log

theorem Handles.handled (h : Handles p c c') : Obs.handled c.now p ∈ c'.log :=
  h.log.subset (List.mem_append_right _ (List.mem_singleton.mpr rfl))

/-- The packets handled after a step, and after a packet. -/
theorem Step.mem_handled {k : Cause} {x : Connection} (h : Step k c c')
    (hmem : Obs.handled x p ∈ c'.log) : Obs.handled x p ∈ c.log :=
  h.extends.log.later.mem_handled hmem

theorem Handles.mem_handled {x : Connection} {q : Bytes} (h : Handles p c c')
    (hmem : Obs.handled x q ∈ c'.log) : Obs.handled x q ∈ c.log ∨ x = c.now ∧ q = p := by
  obtain ⟨c1, hr, h1⟩ := h.handling
  have hmem1 := h1.log.mem_handled hmem
  rw [hr.log] at hmem1
  rcases List.mem_append.mp hmem1 with hold | hnew
  · exact .inl hold
  · cases List.mem_singleton.mp hnew
    exact .inr ⟨rfl, rfl⟩

theorem Quiet.settings (h : Quiet c c') : c'.now.settings = c.now.settings := by
  cases h with
  | step h => exact h.extends.settings
  | handle h =>
    obtain ⟨c1, hr, h1⟩ := h.handling
    exact h1.settings.trans hr.settings
  | identWait h hno => rfl
  | identDone h hs => rfl

theorem Quiet.log (h : Quiet c c') : c.log <+: c'.log := by
  cases h with
  | step h => exact h.extends.log.isPrefix
  | handle h => exact (List.prefix_append _ _).trans h.log
  | identWait h hno => exact List.prefix_refl _
  | identDone h hs => exact List.prefix_refl _

theorem Move.settings (h : Move c c') : c'.now.settings = c.now.settings := by
  cases h with
  | quiet h => exact h.settings
  | fault h =>
    cases h with
    | reject h => exact h.settings
    | spoil h hm => exact h.settings
    | drop hkind => rfl
    | identBad h => rfl
  | recv bytes => rfl
  | own h => exact h.extends.settings

/-- The history only grows. -/
theorem Move.log (h : Move c c') : c.log <+: c'.log := by
  cases h with
  | quiet h => exact h.log
  | fault h =>
    cases h with
    | reject h =>
      rw [h.log]
      exact List.prefix_append _ _
    | spoil h hm =>
      dsimp only
      rw [h.log]
      exact List.prefix_append _ _
    | drop hkind => exact List.prefix_refl _
    | identBad h => exact List.prefix_refl _
  | recv bytes => exact List.prefix_refl _
  | own h => exact h.extends.log.isPrefix

theorem Receives.mem_handled {b : Connection} {q : Bytes} (h : Receives p c c1)
    (hmem : Obs.handled b q ∈ c1.log) : Obs.handled b q ∈ c.log ∨ b = c.now ∧ Receives q c c1 := by
  rw [h.log] at hmem
  rcases List.mem_append.mp hmem with hmem | hmem
  · exact .inl hmem
  · cases List.mem_singleton.mp hmem
    exact .inr ⟨rfl, h⟩

/-- A packet handled by a move was opened in the state before it. -/
theorem Move.mem_handled {b : Connection} {q : Bytes} (h : Move c c')
    (hmem : Obs.handled b q ∈ c'.log) :
    Obs.handled b q ∈ c.log ∨ b = c.now ∧ ∃ c1, Receives q c c1 := by
  have hreceived : ∀ {p c1}, Receives p c c1 → Obs.handled b q ∈ c1.log →
      Obs.handled b q ∈ c.log ∨ b = c.now ∧ ∃ c1, Receives q c c1 := by
    intro p c1 hr hmem
    rcases hr.mem_handled hmem with hold | ⟨hb, hr⟩
    · exact .inl hold
    · exact .inr ⟨hb, c1, hr⟩
  cases h with
  | quiet h =>
    cases h with
    | step h => exact .inl (h.extends.log.later.mem_handled hmem)
    | handle h =>
      obtain ⟨c1, hr, h1⟩ := h.handling
      exact hreceived hr (h1.log.mem_handled hmem)
    | identWait h hno => exact .inl hmem
    | identDone h hs => exact .inl hmem
  | fault h =>
    cases h with
    | reject h => exact hreceived h hmem
    | spoil h hm => exact hreceived h hmem
    | drop hkind => exact .inl hmem
    | identBad h => exact .inl hmem
  | recv bytes => exact .inl hmem
  | own h => exact .inl (h.extends.log.later.mem_handled hmem)

-- ============================================================================
-- Flags that are never taken back
-- ============================================================================

/-- The flags of `c` that are set are set in `c'`. -/
structure Rises (c c' : Connection) : Prop where
  firstKexDone : c.firstKexDone = true → c'.firstKexDone = true
  strictKex : c.strictKex = true → c'.strictKex = true
  authed : c.authed = true → c'.authed = true
  closed : c.closed = true → c'.closed = true

namespace Rises

omit [CryptoLib] in
theorem refl (c : Connection) : Rises c c := ⟨id, id, id, id⟩

omit [CryptoLib] in
theorem trans {c c' c'' : Connection} (h : Rises c c') (h' : Rises c' c'') : Rises c c'' :=
  ⟨h'.firstKexDone ∘ h.firstKexDone, h'.strictKex ∘ h.strictKex, h'.authed ∘ h.authed,
    h'.closed ∘ h.closed⟩

omit [CryptoLib] in
theorem of_control {c c' : Connection} (h : c'.control = c.control) : Rises c c' := by
  refine ⟨fun hc => ?_, fun hc => ?_, fun hc => ?_, fun hc => ?_⟩
  · exact (congrArg (·.conn.firstKexDone) h).trans hc
  · exact (congrArg (·.conn.strictKex) h).trans hc
  · exact (congrArg (·.conn.authed) h).trans hc
  · exact (congrArg (·.conn.closed) h).trans hc

end Rises

theorem Starts.rises (h : Starts c c') : Rises c.now c'.now := by
  cases h with
  | mk hq =>
    have h := Rises.of_control hq.control
    exact ⟨h.firstKexDone, h.strictKex, h.authed, h.closed⟩

theorem Joins.rises (h : Joins c c') : Rises c.now c'.now := by
  cases h with
  | running hk => exact .refl _
  | started hk hs => exact hs.rises

theorem Switches.rises {pk : PendingKeys} (h : Switches pk c c') : Rises c.now c'.now := by
  cases h with
  | mk hpk hq =>
    have h := Rises.of_control hq.control
    exact ⟨h.firstKexDone, h.strictKex, h.authed, h.closed⟩

theorem HangsUp.rises {reason : UInt32} {msg : String} (h : HangsUp reason msg c c') :
    Rises c.now c'.now := by
  cases h with
  | again hc => exact .refl _
  | first hc hs =>
    have h := Rises.of_control hs.control
    exact ⟨h.firstKexDone, h.strictKex, h.authed, fun _ => rfl⟩

theorem Denies.rises {cfg : ServerConfig} (h : Denies cfg c c') : Rises c.now c'.now := by
  cases h with
  | soft hlt hq => exact .of_control hq.control
  | hard hge hh => exact hh.rises

theorem Greets.rises (h : Greets c c') : Rises c.now c'.now := by
  cases h with
  | silent hr he => exact .refl _
  | extInfo hr he hq => exact .of_control hq.control
  | service hr hq => exact .of_control hq.control

omit [CryptoLib] in
theorem rises_recorded (c : Connection) (k : KexState) (theirs : KexInit) (c2s s2c : String) :
    Rises c (c.recorded k theirs c2s s2c) := by
  refine ⟨id, fun h => ?_, id, id⟩
  simp only [recorded, h, Bool.true_or]

theorem Step.rises (h : Step k c c') : Rises c.now c'.now := by
  rcases h.control with hc | ⟨-, hs⟩ | ⟨reason, msg, hh⟩
  · exact .of_control hc
  · exact hs.rises
  · exact hh.rises

theorem Handles.rises (h : Handles p c c') : Rises c.now c'.now := by
  -- what the packet layer keeps, then what the handler does
  have hrecv : ∀ {c1 : Conn}, Receives p c c1 → Rises c1.now c'.now → Rises c.now c'.now :=
    fun hr h => (Rises.of_control hr.control).trans h
  cases h with
  | skip hr h => exact hrecv hr (.refl _)
  | answer hr h hq => exact hrecv hr (.of_control hq.control)
  | kexinitServer hr hm hrole hp hj hk hn =>
    exact hrecv hr (hj.rises.trans (rises_recorded _ _ _ _ _))
  | kexinitClient hr hm hrole hp hj hk hn hpub hq =>
    have h := (rises_recorded _ _ _ _ _).trans (.of_control hq.control)
    exact hrecv hr (hj.rises.trans h)
  | ecdhInit hr hrole hm hcfg hx hz hq hs =>
    have h := (Rises.of_control hq.control).trans hs.rises
    exact hrecv hr ⟨h.firstKexDone, h.strictKex, h.authed, h.closed⟩
  | ecdhReply hr hrole hm hpub hsec hx hks hsig hz hs =>
    have h := hs.rises
    exact hrecv hr ⟨h.firstKexDone, h.strictKex, h.authed, h.closed⟩
  | newkeysFirst hr hm hpk hf hg =>
    have h := hg.rises
    exact hrecv hr ⟨fun _ => h.firstKexDone rfl, h.strictKex, h.authed, h.closed⟩
  | newkeysAgain hr hm hpk hf => exact hrecv hr ⟨id, id, id, id⟩
  | userauthSuccess hr hm => exact hrecv hr ⟨id, id, fun _ => rfl, id⟩
  | authAccept hr hrole hcfg hm hok hq =>
    have h := Rises.of_control hq.control
    exact hrecv hr ⟨h.firstKexDone, h.strictKex, fun _ => h.authed rfl, h.closed⟩
  | authReject hr hrole hcfg hm hbad hd =>
    have h := hd.rises
    exact hrecv hr ⟨h.firstKexDone, h.strictKex, h.authed, h.closed⟩
  | authOther hr hrole hcfg hm hd => exact hrecv hr hd.rises
  | disconnect hr hm => exact hrecv hr ⟨id, id, id, fun _ => rfl⟩
  | openSession hr hm hauth ha =>
    have h := Rises.of_control ha.control
    exact hrecv hr ⟨h.firstKexDone, h.strictKex, h.authed, h.closed⟩
  | openDirect hr hm hauth ha =>
    have h := Rises.of_control ha.control
    exact hrecv hr ⟨h.firstKexDone, h.strictKex, h.authed, h.closed⟩
  | openConfirm hr hm hch => exact hrecv hr ⟨id, id, id, id⟩
  | openFail hr hm => exact hrecv hr ⟨id, id, id, id⟩
  | windowAdjust hr hm hch => exact hrecv hr ⟨id, id, id, id⟩
  | deliver hr hm hch hw => exact hrecv hr ⟨id, id, id, id⟩
  | peerEof hr hm hch => exact hrecv hr ⟨id, id, id, id⟩
  | peerEofUnknown hr hm hch => exact hrecv hr ⟨id, id, id, id⟩
  | peerClose hr hm hch => exact hrecv hr ⟨id, id, id, id⟩

theorem Move.rises (h : Move c c') : Rises c.now c'.now := by
  cases h with
  | quiet h =>
    cases h with
    | step h => exact h.rises
    | handle h => exact h.rises
    | identWait h hno => exact ⟨id, id, id, id⟩
    | identDone h hs => exact ⟨id, id, id, id⟩
  | fault h =>
    cases h with
    | reject h => exact .of_control h.control
    | spoil h hm =>
      have h := Rises.of_control h.control
      exact ⟨h.firstKexDone, h.strictKex, h.authed, h.closed⟩
    | drop hkind => exact ⟨id, id, id, id⟩
    | identBad h => exact ⟨id, id, id, id⟩
  | recv bytes => exact ⟨id, id, id, id⟩
  | own h => exact h.rises

-- ============================================================================
-- Sequences of moves
-- ============================================================================

theorem Moves.settings (h : Moves c c') : c'.now.settings = c.now.settings := by
  induction h with
  | refl => rfl
  | tail _ hm ih => exact hm.settings.trans ih

theorem Moves.log (h : Moves c c') : c.log <+: c'.log := by
  induction h with
  | refl => exact List.prefix_refl _
  | tail _ hm ih => exact ih.trans hm.log

theorem Moves.rises (h : Moves c c') : Rises c.now c'.now := by
  induction h with
  | refl => exact .refl _
  | tail _ hm ih => exact ih.trans hm.rises

theorem Moves.wellFormed (h : Moves c c') (hwf : WellFormed c) : WellFormed c' := by
  induction h with
  | refl => exact hwf
  | tail _ hm ih => exact hm.wellFormed ih

/-- An invariant that every move keeps, in well-formed states, as long as the
    history stays within `G`, holds after every sequence of moves whose history
    stays within `G`. -/
theorem Moves.invariant {I : Conn → Prop} {G : Obs → Prop}
    (hstep : ∀ c c', WellFormed c → I c → Move c c' → (∀ o ∈ c'.log, G o) → I c')
    (h : Moves c c') (hwf : WellFormed c) (hI : I c) (hG : ∀ o ∈ c'.log, G o) : I c' := by
  induction h with
  | refl => exact hI
  | tail hms hm ih =>
    rename_i c1 c2
    have hG1 : ∀ o ∈ c1.log, G o := fun o ho => hG o (hm.log.subset ho)
    exact hstep c1 c2 (Moves.wellFormed hms hwf) (ih hG1) hm hG

end Ssproxy
