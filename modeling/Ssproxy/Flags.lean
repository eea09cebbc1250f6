/-
  Ssproxy.Flags

  The flags `wire_eof` and `wire_close` of a channel against the packets that
  were queued for it.  The emitters set a flag before they look for the remote
  id, so the flags tell the truth as long as no stream ends, with the gate open,
  on a channel whose open is not confirmed yet.
-/

import Ssproxy.Lives

namespace Ssproxy

open Lib Wire Connection Relation

-- ============================================================================
-- When the gate opens
-- ============================================================================

/-- `p` opens the gate: a login, or the end of a rekey. -/
inductive Reopens (c : Connection) (p : Bytes) : Prop where
  | login (h : OpensGate c p)
  | rekeyed (hm : IsMsg .newkeys p) (hf : c.firstKexDone = true)
      (hpk : c.pendingKeys.isSome = true)

variable [CryptoLib] {c c' c1 : Conn} {p : Bytes} {k : Cause}

omit [CryptoLib] in
theorem gate_of_control {x x' : Connection} (h : x'.control = x.control) :
    x'.kexBlocksApp = x.kexBlocksApp := congrArg (·.conn.kexBlocksApp) h

theorem HangsUp.gate {reason : UInt32} {msg : String} (h : HangsUp reason msg c c') :
    c'.now.kexBlocksApp = c.now.kexBlocksApp := by
  cases h with
  | again hc => rfl
  | first hc hs =>
    have hgate := gate_of_control hs.control
    exact hgate

theorem Denies.gate {cfg : ServerConfig} (h : Denies cfg c c') :
    c'.now.kexBlocksApp = c.now.kexBlocksApp := by
  cases h with
  | soft hlt hq => exact gate_of_control hq.control
  | hard hge hh => exact hh.gate

/-- No step opens the gate. -/
theorem Step.gate (h : Step k c c') (hopen : c'.now.kexBlocksApp = false) :
    c.now.kexBlocksApp = false := by
  rcases h.control with hc | ⟨-, hs⟩ | ⟨reason, msg, hh⟩
  · exact gate_of_control hc ▸ hopen
  · rw [hs.gate] at hopen
    cases hopen
  · exact hh.gate ▸ hopen

theorem Handles.gate (h : Handles p c c') (hopen : c'.now.kexBlocksApp = false) :
    c.now.kexBlocksApp = false ∨ Reopens c.now p := by
  -- most handlers leave the gate alone
  have hsame : ∀ {c1 : Conn}, Receives p c c1 → c'.now.kexBlocksApp = c1.now.kexBlocksApp →
      c.now.kexBlocksApp = false ∨ Reopens c.now p := by
    intro c1 hr hgate
    exact .inl ((gate_of_control hr.control).symm.trans (hgate.symm.trans hopen))
  cases h with
  | skip hr h => exact hsame hr rfl
  | answer hr h hq => exact hsame hr (gate_of_control hq.control)
  | kexinitServer hr hm hrole hp hj hk hn =>
    cases hj with
    | running hk => exact hsame hr rfl
    | started hk hs => exact absurd (hs.gate.symm.trans hopen) Bool.noConfusion
  | kexinitClient hr hm hrole hp hj hk hn hpub hq =>
    have hq := gate_of_control hq.control
    cases hj with
    | running hk => exact hsame hr hq
    | started hk hs => exact absurd (hs.gate.symm.trans (hq.symm.trans hopen)) Bool.noConfusion
  | ecdhInit hr hrole hm hcfg hx hz hq hs =>
    cases hs with
    | mk hpk hq' =>
      have hreply := gate_of_control hq.control
      have hnewkeys := gate_of_control hq'.control
      exact hsame hr (hnewkeys.trans hreply)
  | ecdhReply hr hrole hm hpub hsec hx hks hsig hz hs =>
    cases hs with
    | mk hpk hq' =>
      have hnewkeys := gate_of_control hq'.control
      exact hsame hr hnewkeys
  | newkeysFirst hr hm hpk hf hg =>
    refine hsame hr ?_
    cases hg with
    | silent hr he => rfl
    | extInfo hr he hq =>
      have hgate := gate_of_control hq.control
      exact hgate
    | service hr hq =>
      have hgate := gate_of_control hq.control
      exact hgate
  | @newkeysAgain c1 pk hr hm hpk hf =>
    have hpend : c.now.pendingKeys = some pk :=
      (congrArg (·.conn.pendingKeys) hr.control).symm.trans hpk
    refine .inr (.rekeyed hm ((congrArg (·.conn.firstKexDone) hr.control).symm.trans hf) ?_)
    rw [hpend]
    rfl
  | userauthSuccess hr hm => exact .inr (.login (.success hm))
  | authAccept hr hrole hcfg hm hok hq =>
    refine .inr (.login (.password ?_ ?_ hm hok))
    · exact (congrArg (·.role) hr.settings).symm.trans hrole
    · exact (congrArg (·.server) hr.settings).symm.trans hcfg
  | authReject hr hrole hcfg hm hbad hd =>
    have hgate := hd.gate
    exact hsame hr hgate
  | authOther hr hrole hcfg hm hd => exact hsame hr hd.gate
  | disconnect hr hm => exact hsame hr rfl
  | openSession hr hm hauth ha => exact hsame hr (gate_of_control ha.control)
  | openDirect hr hm hauth ha => exact hsame hr (gate_of_control ha.control)
  | openConfirm hr hm hch => exact hsame hr rfl
  | openFail hr hm => exact hsame hr rfl
  | windowAdjust hr hm hch => exact hsame hr rfl
  | deliver hr hm hch hw => exact hsame hr rfl
  | peerEof hr hm hch => exact hsame hr rfl
  | peerEofUnknown hr hm hch => exact hsame hr rfl
  | peerClose hr hm hch => exact hsame hr rfl

theorem Faults.gate (h : Faults c c') : c'.now.kexBlocksApp = c.now.kexBlocksApp := by
  cases h with
  | reject h => exact gate_of_control h.control
  | spoil h hm =>
    have hgate := gate_of_control h.control
    exact hgate
  | drop hkind => rfl
  | identBad h => rfl

/-- A move that opens the gate handles a packet that does. -/
theorem Move.gate (h : Move c c') (hopen : c'.now.kexBlocksApp = false) :
    c.now.kexBlocksApp = false ∨
      ∃ p, Reopens c.now p ∧ c.log ++ [.handled c.now p] <+: c'.log := by
  cases h with
  | quiet h =>
    cases h with
    | step h => exact .inl (h.gate hopen)
    | handle h => exact (h.gate hopen).imp id fun ho => ⟨_, ho, h.log⟩
    | identWait h hno => exact .inl hopen
    | identDone h hs => exact .inl hopen
  | fault h => exact .inl (h.gate ▸ hopen)
  | recv bytes => exact .inl hopen
  | own h => exact .inl (h.gate hopen)

-- ============================================================================
-- True flags
-- ============================================================================

open StreamPacket

/-- A stream ends, with the gate open, only on a channel whose remote id is
    known; and whenever the gate opens, so is that of every channel whose stream
    has ended. -/
def Obs.Grounded : Obs → Prop
  | ended before id _ => before.kexBlocksApp = false →
      ∀ ch, before.channels.get? id = some ch → ch.remoteId.isSome = true
  | handled before p => Reopens before p →
      ∀ id ch, before.channels.get? id = some ch → ch.sentEof = true → ch.remoteId.isSome = true
  | _ => True

/-- The flags of a channel, given the packets of its life. -/
structure Truthful (l : List StreamPacket) (ch : Channel) : Prop where
  close : ch.wireClose = true → .close ∈ l
  eof : ch.wireEof = true → .eof ∈ l ∨ .close ∈ l

/-- The stream has ended only on a channel whose remote id is known. -/
def Rooted (ch : Channel) : Prop := ch.sentEof = true → ch.remoteId.isSome = true

variable {id : UInt32} {x : Connection} {ch ch' : Channel} {new : List Obs}
  {l l' : List StreamPacket}

omit [CryptoLib] in
theorem Truthful.later (h : Truthful l ch) (hc : ch'.wireClose = ch.wireClose)
    (he : ch'.wireEof = ch.wireEof) : Truthful (l ++ l') ch' := by
  refine ⟨fun hw => List.mem_append_left _ (h.close (hc ▸ hw)), fun hw => ?_⟩
  exact (h.eof (he ▸ hw)).imp (List.mem_append_left _) (List.mem_append_left _)

omit [CryptoLib] in
/-- An act keeps the flags true, unless a stream ends where it must not. -/
theorem Act.truthful (h : Act id x ch k ch' new) (hch : x.channels.get? id = some ch)
    (hroot : k.Inner → x.kexBlocksApp = false → Rooted ch) (hends : EndFlags ch)
    (hG : ∀ o ∈ new, o.Grounded) (ht : Truthful l ch) :
    Truthful (l ++ new.filterMap (Obs.streamPacket id)) ch' := by
  cases h with
  | closeSilent hgate hc hw hr =>
    have hknown := hG _ List.mem_cons_self hgate ch hch
    rw [hr] at hknown
    cases hknown
  | emitEofSilent hgate he hw hr =>
    have hknown := hroot trivial hgate he
    rw [hr] at hknown
    cases hknown
  | emitCloseSilent hgate hc hw hr =>
    have hknown := hroot trivial hgate (hends.asked hc)
    rw [hr] at hknown
    cases hknown
  | closeNow hgate hc hw hr =>
    rw [List.filterMap_cons_none rfl, stream_queued]
    have hmem : StreamPacket.close ∈ l ++ [StreamPacket.close] := by simp
    exact ⟨fun _ => hmem, fun _ => .inr hmem⟩
  | emitClose hgate hc hw hr =>
    rw [stream_queued]
    have hmem : StreamPacket.close ∈ l ++ [StreamPacket.close] := by simp
    exact ⟨fun _ => hmem, fun _ => .inr hmem⟩
  | emitEof hgate he hw hr =>
    rw [stream_queued]
    have hmem : StreamPacket.eof ∈ l ++ [StreamPacket.eof] := by simp
    exact ⟨fun hc => List.mem_append_left _ (ht.close hc), fun _ => .inl hmem⟩
  | _ => exact ht.later rfl rfl

omit [CryptoLib] in
/-- With the gate open, an act leaves the channel rooted. -/
theorem Act.rooted (h : Act id x ch k ch' new) (hch : x.channels.get? id = some ch)
    (hgate : x.kexBlocksApp = false) (hG : ∀ o ∈ new, o.Grounded) (hroot : Rooted ch) :
    Rooted ch' := by
  cases h with
  | askEof he hc => exact fun _ => hG _ List.mem_cons_self hgate ch hch
  | askClose hclosed hc =>
    rw [hgate] at hclosed
    cases hclosed
  | closeAgain hc hw => exact fun _ => hG _ List.mem_cons_self hgate ch hch
  | closeSilent _ hc hw hr => exact fun _ => hG _ List.mem_cons_self hgate ch hch
  | closeNow _ hc hw hr => exact fun _ => hr ▸ rfl
  | peerConfirm hm => exact fun _ => rfl
  | _ => exact hroot

omit [CryptoLib] in
/-- So does the handler of a packet, and `send_data`. -/
theorem Act.rooted_of_handled {b : Connection} (h : Act id x ch k ch' new)
    (hnew : (∃ j data, k = .call (.sendData j data)) ∨ [.handled b p] <+: new)
    (hroot : Rooted ch) : Rooted ch' := by
  -- acts that end the stream have another cause
  have hended : ∀ {x : Connection} {close : Bool} {rest : List Obs},
      new = .ended x id close :: rest → k = .own ∨ k = .call (.sendEof id) → Rooted ch' := by
    rintro x close rest rfl hk
    rcases hnew with ⟨j, data, rfl⟩ | ⟨tail, hpre⟩
    · rcases hk with hk | hk <;> cases hk
    · cases hpre
  cases h with
  | askEof he hc => exact hended rfl (.inr rfl)
  | askClose hclosed hc => exact hended rfl (.inl rfl)
  | closeAgain hc hw => exact hended rfl (.inl rfl)
  | closeSilent _ hc hw hr => exact hended rfl (.inl rfl)
  | closeNow _ hc hw hr => exact hended rfl (.inl rfl)
  | peerConfirm hm => exact fun _ => rfl
  | _ => exact hroot

omit [CryptoLib] in
theorem Fresh.rooted (h : Fresh id x k ch new) : Rooted ch := by
  cases h with
  | peer hm hev => exact nofun
  | here hrole hnew => exact nofun

/-- The channel in slot `id`, if there is one: its flags are true, and with the
    gate open it is rooted. -/
structure FlagsOk (id : UInt32) (c : Conn) : Prop where
  truthful : ∀ ch, c.now.channels.get? id = some ch → Truthful (lifeOf id c.log) ch
  rooted : c.now.kexBlocksApp = false → ∀ ch, c.now.channels.get? id = some ch → Rooted ch
  ends : ∀ ch, c.now.channels.get? id = some ch → EndFlags ch

omit [CryptoLib] in
theorem SlotStep.ends (h : SlotStep id k c c')
    (hends : ∀ ch, c.now.channels.get? id = some ch → EndFlags ch) :
    ∀ ch, c'.now.channels.get? id = some ch → EndFlags ch :=
  h.keeps (G := fun _ => True) (fun _ _ _ _ hf _ => hf.endFlags)
    (fun _ _ _ _ _ _ hI ha _ => ha.endFlags hI) hends fun _ _ => trivial

omit [CryptoLib] in
theorem SlotStep.truthful (h : SlotStep id k c c')
    (hroot : k.Inner → c.now.kexBlocksApp = false →
      ∀ ch, c.now.channels.get? id = some ch → Rooted ch)
    (hends : ∀ ch, c.now.channels.get? id = some ch → EndFlags ch)
    (hG : ∀ o ∈ c'.log, o.Grounded)
    (ht : ∀ ch, c.now.channels.get? id = some ch → Truthful (lifeOf id c.log) ch) :
    ∀ ch, c'.now.channels.get? id = some ch → Truthful (lifeOf id c'.log) ch := by
  intro ch1 hch1
  cases h with
  | idle hget hlog hnew =>
    rw [hlog, lifeOf_mute fun o ho => (hnew o ho).mute]
    exact ht ch1 (hget ▸ hch1)
  | act hch hch' ha hlog =>
    cases hch'.symm.trans hch1
    rw [hlog, lifeOf_append ha.opens]
    refine ha.truthful hch (fun hk hgate => hroot hk hgate _ hch) (hends _ hch) (fun o ho => hG o ?_)
      (ht _ hch)
    rw [hlog]
    exact List.mem_append_right _ ho
  | enter hch' hf hlog =>
    cases hch'.symm.trans hch1
    obtain ⟨heof, hclose, -⟩ := hf.split
    exact ⟨fun hw => absurd (hclose.symm.trans hw) Bool.false_ne_true,
      fun hw => absurd (heof.symm.trans hw) Bool.false_ne_true⟩
  | leave hch hnone hl hlog => cases hnone.symm.trans hch1

omit [CryptoLib] in
/-- A step that leaves the gate open, or a packet that opens it. -/
theorem SlotStep.rooted (h : SlotStep id k c c') (hG : ∀ o ∈ c'.log, o.Grounded)
    (hwhy : c.now.kexBlocksApp = false ∨ (∃ j data, k = .call (.sendData j data)) ∨
      ∃ p, c.log ++ [.handled c.now p] <+: c'.log)
    (hroot : ∀ ch, c.now.channels.get? id = some ch → Rooted ch) :
    ∀ ch, c'.now.channels.get? id = some ch → Rooted ch := by
  intro ch1 hch1
  cases h with
  | idle hget hlog hnew => exact hroot ch1 (hget ▸ hch1)
  | act hch hch' ha hlog =>
    cases hch'.symm.trans hch1
    rcases hwhy with hgate | hdata | ⟨p, hpre⟩
    · refine ha.rooted hch hgate (fun o ho => hG o ?_) (hroot _ hch)
      rw [hlog]
      exact List.mem_append_right _ ho
    · exact ha.rooted_of_handled (b := c.now) (p := []) (.inl hdata) (hroot _ hch)
    · rw [hlog, List.prefix_append_right_inj] at hpre
      exact ha.rooted_of_handled (.inr hpre) (hroot _ hch)
  | enter hch' hf hlog =>
    cases hch'.symm.trans hch1
    exact hf.rooted
  | leave hch hnone hl hlog => cases hnone.symm.trans hch1

theorem FlagsOk.move (h : FlagsOk id c) (hm : Move c c') (hwf : WellFormed c)
    (hG : ∀ o ∈ c'.log, o.Grounded) : FlagsOk id c' := by
  rcases hm.slot hwf.table with ⟨k, hs⟩ | ⟨j, data, hstep⟩
  · refine ⟨hs.truthful (fun _ => h.rooted) h.ends hG h.truthful, fun hopen => ?_, hs.ends h.ends⟩
    rcases hm.gate hopen with hgate | ⟨p, hre, hpre⟩
    · exact hs.rooted hG (.inl hgate) (h.rooted hgate)
    · have hmem : Obs.handled c.now p ∈ c'.log :=
        hpre.subset (List.mem_append_right _ (List.mem_singleton.mpr rfl))
      exact hs.rooted hG (.inr (.inr ⟨p, hpre⟩)) fun ch hch => hG _ hmem hre id ch hch
  · have hslots : SlotSteps id (· = .call (.sendData j data)) c c' := hstep.slots hwf.table rfl
    have hdata : (∀ ch, c'.now.channels.get? id = some ch → Truthful (lifeOf id c'.log) ch) ∧
        (∀ ch, c'.now.channels.get? id = some ch → EndFlags ch) := by
      refine hslots.invariant (G := Obs.Grounded) (I := fun c =>
        (∀ ch, c.now.channels.get? id = some ch → Truthful (lifeOf id c.log) ch) ∧
        ∀ ch, c.now.channels.get? id = some ch → EndFlags ch) ?_ ⟨h.truthful, h.ends⟩ hG
      rintro _ c1 c2 rfl ⟨ht, hends⟩ hs hG
      exact ⟨hs.truthful (fun hk => hk.elim) hends hG ht, hs.ends hends⟩
    refine ⟨hdata.1, fun hopen => ?_, hdata.2⟩
    refine hslots.invariant (G := Obs.Grounded)
      (I := fun c => ∀ ch, c.now.channels.get? id = some ch → Rooted ch) ?_
      (h.rooted (hstep.gate hopen)) hG
    rintro _ c1 c2 rfl hroot hs hG
    exact hs.rooted hG (.inr (.inl ⟨j, data, rfl⟩)) hroot

namespace Setup

variable {setup : Setup} {rng : Rng} {calls : List Call}

/-- In every run in which streams end only where the packet that says so can be
    addressed, the flags of a live channel are true: its CLOSE has been queued
    since it was opened, and for `wire_eof` its EOF or its CLOSE. -/
theorem run_truthful (hrun : setup.run rng calls = .ok () c) (hG : ∀ o ∈ c.log, o.Grounded)
    (hch : c.now.channels.get? id = some ch) :
    (ch.wireClose = true → StreamPacket.close ∈ lifeOf id c.log) ∧
      (ch.wireEof = true →
        StreamPacket.eof ∈ lifeOf id c.log ∨ StreamPacket.close ∈ lifeOf id c.log) := by
  obtain ⟨c0, hstart, hmoves⟩ := (setup.run_sat rng calls).of_ok hrun
  have hok : FlagsOk id c := by
    refine Moves.invariant (G := Obs.Grounded) (fun c c' hwf hI hm hG => hI.move hm hwf hG) hmoves
      (setup.starts_wellFormed hstart) ?_ hG
    exact ⟨fun _ hch => absurd hch hstart.no_channel, fun _ _ hch => absurd hch hstart.no_channel,
      fun _ hch => absurd hch hstart.no_channel⟩
  exact ⟨(hok.truthful ch hch).close, (hok.truthful ch hch).eof⟩

omit [CryptoLib] in
theorem run_truthful_wholeLife : ∃ c ch,
    @Setup.run Toy.lib (.server Toy.server) Toy.rng wholeLife = .ok () c ∧
      c.now.channels.get? 0 = some ch ∧ ch.wireClose = true ∧
      StreamPacket.close ∈ lifeOf 0 c.log := by
  have hpass : (@Setup.run Toy.lib (.server Toy.server) Toy.rng wholeLife).passes (fun c =>
      ((c.now.channels.get? 0).any fun ch => ch.wireClose) &&
      c.log.all (Obs.everyEnded fun before id =>
        (before.channels.get? id).all fun ch => ch.remoteId.isSome) &&
      c.log.all (Obs.everyHandled fun before p =>
        before.channels.slots.isEmpty || decide (IsMsg .channelOpen p))) = true := by
    decide +kernel
  obtain ⟨_, c, hrun, hc⟩ := Outcome.exists_of_passes hpass
  rw [Bool.and_eq_true, Bool.and_eq_true, Option.any_eq_true, List.all_eq_true,
    List.all_eq_true] at hc
  obtain ⟨⟨⟨ch, hch, hw⟩, hended⟩, hhandled⟩ := hc
  refine ⟨c, ch, hrun, hch, hw, (@run_truthful Toy.lib c 0 ch _ _ _ hrun (fun o ho => ?_) hch).1 hw⟩
  cases o with
  | ended before id close =>
    intro hgate ch hch
    exact (Option.all_eq_true _ _).mp (hended _ ho) ch hch
  | handled before p =>
    intro hre id ch hch
    rcases (Bool.or_eq_true _ _).mp (hhandled _ ho) with hempty | hopen
    · rw [ChannelTable.get?, List.isEmpty_iff.mp hempty] at hch
      cases hch
    · have hm : IsMsg .channelOpen p := of_decide_eq_true hopen
      rcases hre with (hs | ⟨-, -, hs, -⟩) | ⟨hs, -⟩
      · cases hm.unique hs
      · cases hm.unique (IsMsg.of_prefix hs)
      · cases hm.unique hs
  | _ => trivial

/-- A server that completes the key exchange and the login, and a client that
    opens a channel and closes it before the server has confirmed it. -/
def closeUnconfirmed : List Call :=
  [.recv (Toy.identLine ++ Toy.clearPacket (Toy.kexinit ["curve25519-sha256"] serverCiphers)
      ++ Toy.clearPacket (Msg.ecdhReply [1] Toy.point [2])
      ++ Toy.clearPacket Msg.newkeys ++ Toy.sealedPacket (Msg.serviceAccept "ssh-userauth")
      ++ Toy.sealedPacket Msg.userauthSuccess), .processIn,
    .openDirectTcpip "h" 80, .sendClose 0]

omit [CryptoLib] in
/-- The flags are set and nothing was queued. -/
theorem flag_without_packet : ¬∀ (lib : CryptoLib) (setup : Setup) (rng : Rng)
    (calls : List Call) (c : Conn) (id : UInt32) (ch : Channel),
    @Setup.run lib setup rng calls = .ok () c → c.now.channels.get? id = some ch →
    (ch.wireClose = true → StreamPacket.close ∈ lifeOf id c.log) ∧
      (ch.wireEof = true →
        StreamPacket.eof ∈ lifeOf id c.log ∨ StreamPacket.close ∈ lifeOf id c.log) := by
  intro hclaim
  have hpass : (@Setup.run Toy.lib (.client Toy.client) Toy.rng closeUnconfirmed).passes (fun c =>
      ((c.now.channels.get? 0).any fun ch => ch.wireClose) && decide (lifeOf 0 c.log = [])) = true := by
    decide +kernel
  obtain ⟨_, c, hrun, hc⟩ := Outcome.exists_of_passes hpass
  rw [Bool.and_eq_true, Option.any_eq_true, decide_eq_true_iff] at hc
  obtain ⟨⟨ch, hch, hw⟩, hnil⟩ := hc
  have hmem := (hclaim _ _ _ _ c 0 ch hrun hch).1 hw
  rw [hnil] at hmem
  exact List.not_mem_nil hmem

end Setup

end Ssproxy
