/-
  Ssproxy.Auth

  Authentication of a server, over whole runs: what has to have happened before
  a peer counts as authenticated, under which cipher, and how many passwords it
  may try.

  `AuthEffect` lists what handling one packet can do to the standing of the
  peer.  Each result is an invariant shown against this list.
-/

import Ssproxy.Safety
import Ssproxy.Laws

namespace Ssproxy

open Lib Wire Connection

variable [CryptoLib] {p : Bytes} {c c' c1 : Conn} {cfg : ServerConfig}

-- ============================================================================
-- What handling a packet does to the standing of the peer
-- ============================================================================

/-- The part of a connection that authentication reads and writes. -/
structure Standing where
  authed : Bool
  authFails : UInt32
  closed : Bool
  firstKexDone : Bool

def Connection.standing (c : Connection) : Standing :=
  ⟨c.authed, c.authFails, c.closed, c.firstKexDone⟩

omit [CryptoLib] in
theorem standing_of_control {c c' : Connection} (h : c'.control = c.control) :
    c'.standing = c.standing :=
  congrArg (·.conn.standing) h

/-- `auth_fail`: at the limit the connection is closed. -/
inductive Refuses (cfg : ServerConfig) (s : Standing) : Standing → Prop where
  | soft (hlt : s.authFails < cfg.maxAuthFails) : Refuses cfg s s
  | hard (hge : cfg.maxAuthFails ≤ s.authFails) : Refuses cfg s { s with closed := true }

theorem HangsUp.standing {reason : UInt32} {msg : String} (h : HangsUp reason msg c c') :
    c'.now.standing = { c.now.standing with closed := true } := by
  cases h with
  | again hc => simp only [Connection.standing, hc]
  | first hc hs =>
    have h := standing_of_control hs.control
    exact congrArg (fun s : Standing => { s with closed := true }) h

theorem Denies.refuses (h : Denies cfg c c') :
    Refuses cfg c.now.standing c'.now.standing ∧ Grows c.log c'.log := by
  refine ⟨?_, h.extends.log⟩
  cases h with
  | soft hlt hq =>
    rw [standing_of_control hq.control]
    exact .soft hlt
  | hard hge hh =>
    rw [hh.standing]
    exact .hard hge

/-- What handling `p` does to the standing of the peer, and what is observed. -/
inductive AuthEffect (p : Bytes) (c c' : Conn) : Prop where
  | none (hs : c'.now.standing = c.now.standing) (hl : Grows (c.log ++ [.handled c.now p]) c'.log)
  | kexDone {b : Connection} (hb : b.standing = c.now.standing)
      (hs : c'.now.standing = { c.now.standing with firstKexDone := true })
      (hl : Grows (c.log ++ [.handled c.now p] ++ [.kexCompleted b]) c'.log)
  | closed (hs : c'.now.standing = { c.now.standing with closed := true })
      (hl : Grows (c.log ++ [.handled c.now p]) c'.log)
  | success {b : Connection} (hm : IsMsg .userauthSuccess p) (hb : b.standing = c.now.standing)
      (hs : c'.now.standing = { c.now.standing with authed := true })
      (hl : Grows (c.log ++ [.handled c.now p] ++ [.authenticated b]) c'.log)
  | accept {cfg : ServerConfig} {user password : String} {b : Connection}
      (hcfg : c.now.server = some cfg) (hm : Msg.passwordRequest user password <+: p)
      (hok : cfg.checkPassword user password = true) (hb : b.standing = c.now.standing)
      (hs : c'.now.standing = { c.now.standing with authed := true })
      (hl : Grows (c.log ++ [.handled c.now p] ++ [.passwordChecked user password true]
        ++ [.authenticated b]) c'.log)
  | reject {cfg : ServerConfig} {user password : String}
      (hcfg : c.now.server = some cfg) (hm : Msg.passwordRequest user password <+: p)
      (hs : Refuses cfg { c.now.standing with authFails := c.now.authFails + 1 } c'.now.standing)
      (hl : Grows (c.log ++ [.handled c.now p] ++ [.passwordChecked user password false]) c'.log)
  | refuse {cfg : ServerConfig} (hcfg : c.now.server = some cfg)
      (hs : Refuses cfg c.now.standing c'.now.standing)
      (hl : Grows (c.log ++ [.handled c.now p]) c'.log)

theorem Starts.standing (h : Starts c c') : c'.now.standing = c.now.standing := by
  cases h with
  | mk hq =>
    have h := standing_of_control hq.control
    exact h

theorem Joins.standing (h : Joins c c') : c'.now.standing = c.now.standing := by
  cases h with
  | running hk => rfl
  | started hk hs => exact hs.standing

theorem Switches.standing {pk : PendingKeys} (h : Switches pk c c') :
    c'.now.standing = c.now.standing := by
  cases h with
  | mk hpk hq =>
    have h := standing_of_control hq.control
    exact h

theorem Greets.standing (h : Greets c c') : c'.now.standing = c.now.standing := by
  cases h with
  | silent hr he => rfl
  | extInfo hr he hq => exact standing_of_control hq.control
  | service hr hq => exact standing_of_control hq.control

theorem Receives.standing (h : Receives p c c1) : c1.now.standing = c.now.standing :=
  standing_of_control h.control

theorem Receives.server (h : Receives p c c1) : c1.now.server = c.now.server :=
  congrArg (·.server) h.settings

theorem Receives.grows (h : Receives p c c1) : Grows (c.log ++ [.handled c.now p]) c1.log := by
  rw [h.log]
  exact .refl _

theorem Handles.authEffect (h : Handles p c c') : AuthEffect p c c' := by
  -- handlers that do not touch the standing
  have hnone : ∀ {c1 : Conn}, Receives p c c1 → c'.now.standing = c1.now.standing →
      Grows c1.log c'.log → AuthEffect p c c' := fun hr hs hl =>
    .none (hs.trans hr.standing) (hr.log ▸ hl)
  cases h with
  | skip hr h => exact hnone hr rfl (.refl _)
  | answer hr h hq => exact hnone hr (standing_of_control hq.control) hq.extends.log
  | kexinitServer hr hm hrole hp hj hk hn => exact hnone hr hj.standing hj.extends.log
  | kexinitClient hr hm hrole hp hj hk hn hpub hq =>
    have hq' := standing_of_control hq.control
    exact hnone hr (hq'.trans hj.standing) (hj.extends.log.trans hq.extends.log)
  | ecdhInit hr hrole hm hcfg hx hz hq hs =>
    have hq' := standing_of_control hq.control
    exact hnone hr (hs.standing.trans hq') (hq.extends.trans hs.extends).log
  | ecdhReply hr hrole hm hpub hsec hx hks hsig hz hs => exact hnone hr hs.standing hs.extends.log
  | @newkeysFirst c1 c' pk hr hm hpk hf hg =>
    refine .kexDone (b := c1.now.installRecv pk) hr.standing (hg.standing.trans ?_)
      (hr.log ▸ hg.extends.log)
    exact congrArg (fun s : Standing => { s with firstKexDone := true }) hr.standing
  | @newkeysAgain c1 pk hr hm hpk hf =>
    refine .kexDone (b := c1.now.installRecv pk) hr.standing (Eq.trans ?_
      (congrArg (fun s : Standing => { s with firstKexDone := true }) hr.standing)) ?_
    · simp only [Connection.standing, completed, installRecv, hf]
    · rw [← hr.log]
      exact Grows.refl _
  | userauthSuccess hr hm =>
    refine .success hm hr.standing ?_ (hr.log ▸ Grows.single trivial)
    exact congrArg (fun s : Standing => { s with authed := true }) hr.standing
  | authAccept hr hrole hcfg hm hok hq =>
    refine .accept (hr.server ▸ hcfg) hm hok hr.standing ?_
      (hr.log ▸ hq.extends.log.trans (Grows.single trivial))
    have hq' := standing_of_control hq.control
    exact hq'.trans (congrArg (fun s : Standing => { s with authed := true }) hr.standing)
  | @authReject c1 c' cfg user password hr hrole hcfg hm hbad hd =>
    obtain ⟨hs, hl⟩ := hd.refuses
    have hfails : c1.now.authFails = c.now.authFails := congrArg (·.authFails) hr.standing
    refine .reject (hr.server ▸ hcfg) hm ?_ (hr.log ▸ hl)
    rw [← hr.standing, ← hfails]
    exact hs
  | authOther hr hrole hcfg hm hd =>
    obtain ⟨hs, hl⟩ := hd.refuses
    exact .refuse (hr.server ▸ hcfg) (hr.standing ▸ hs) (hr.log ▸ hl)
  | disconnect hr hm =>
    refine .closed ?_ (hr.log ▸ Grows.single trivial)
    exact congrArg (fun s : Standing => { s with closed := true }) hr.standing
  | openSession hr hm hauth ha =>
    exact hnone hr (standing_of_control ha.control) (ha.extends.log.trans (.single trivial))
  | openDirect hr hm hauth ha =>
    exact hnone hr (standing_of_control ha.control) (ha.extends.log.trans (.single trivial))
  | openConfirm hr hm hch => exact hnone hr rfl (.single trivial)
  | openFail hr hm =>
    exact hnone hr rfl ((extends_withoutChannel _ _).log.trans (.single trivial))
  | windowAdjust hr hm hch => exact hnone hr rfl (.refl _)
  | deliver hr hm hch hw => exact hnone hr rfl (.single trivial)
  | peerEof hr hm hch => exact hnone hr rfl (.single trivial)
  | peerEofUnknown hr hm hch => exact hnone hr rfl (.single trivial)
  | peerClose hr hm hch => exact hnone hr rfl (.refl _)

theorem Step.standing {k : Cause} (h : Step k c c') : c'.now.standing = c.now.standing ∨
    c'.now.standing = { c.now.standing with closed := true } := by
  rcases h.control with hc | ⟨-, hs⟩ | ⟨reason, msg, hh⟩
  · exact .inl (standing_of_control hc)
  · exact .inl hs.standing
  · exact .inr hh.standing

/-- A move that handles no packet can at most close the connection. -/
theorem Move.authEffect (h : Move c c') :
    ((c'.now.standing = c.now.standing ∨ c'.now.standing = { c.now.standing with closed := true })
      ∧ Grows c.log c'.log) ∨
    ∃ p, Obs.handled c.now p ∈ c'.log ∧ AuthEffect p c c' := by
  cases h with
  | quiet h =>
    cases h with
    | step h => exact .inl ⟨h.standing, h.extends.log⟩
    | handle h => exact .inr ⟨_, h.log.subset (by simp), h.authEffect⟩
    | identWait h hno => exact .inl ⟨.inl rfl, .refl _⟩
    | identDone h hs => exact .inl ⟨.inl rfl, .refl _⟩
  | fault h =>
    cases h with
    | reject h =>
      refine .inr ⟨_, ?_, .none h.standing h.grows⟩
      rw [h.log]
      simp
    | spoil h hm =>
      refine .inr ⟨_, ?_, .none h.standing h.grows⟩
      dsimp only
      rw [h.log]
      simp
    | drop hkind => exact .inl ⟨.inl rfl, .refl _⟩
    | identBad h => exact .inl ⟨.inl rfl, .refl _⟩
  | recv bytes => exact .inl ⟨.inl rfl, .refl _⟩
  | own h => exact .inl ⟨h.standing, h.extends.log⟩

-- ============================================================================
-- Nothing without a correct password
-- ============================================================================

/-- The peer has got what only an authenticated peer may get. -/
inductive Admitted (c : Conn) : Prop where
  | authed (h : c.now.authed = true)
  | channel {id : UInt32} {ch : Channel} (h : c.now.channels.get? id = some ch)
  | direct {id : UInt32} {host : String} {port : UInt32}
      (h : Obs.emitted (.openDirectTcpIp id host port) ∈ c.log)
  | session {id : UInt32} (h : Obs.emitted (.openSession id) ∈ c.log)

/-- The peer sent a password request with a correct password. -/
def Presented (cfg : ServerConfig) (log : List Obs) : Prop :=
  ∃ x ∈ handledPackets log, ∃ user password,
    Msg.passwordRequest user password <+: x.2 ∧ cfg.checkPassword user password = true

/-- The event that announces a channel the peer asked for. -/
def Obs.announces : Obs → Bool
  | emitted (.openDirectTcpIp _ _ _) => true
  | emitted (.openSession _) => true
  | _ => false

/-- Nothing that `Admitted` looks at was gained. -/
structure Idle (c c' : Conn) : Prop where
  authed : c'.now.authed = c.now.authed
  channels : c'.now.channels = c.now.channels
  log : ∀ o ∈ c'.log, o.announces = true → o ∈ c.log

namespace Idle

omit [CryptoLib] in
theorem refl (c : Conn) : Idle c c := ⟨rfl, rfl, fun _ h _ => h⟩

omit [CryptoLib] in
theorem trans {c c' c'' : Conn} (h : Idle c c') (h' : Idle c' c'') : Idle c c'' :=
  ⟨h'.authed.trans h.authed, h'.channels.trans h.channels,
    fun o ho ha => h.log o (h'.log o ho ha) ha⟩

omit [CryptoLib] in
theorem admitted (h : Idle c c') (ha : Admitted c') : Admitted c := by
  cases ha with
  | authed ha => exact .authed (h.authed ▸ ha)
  | channel hc => exact .channel (h.channels ▸ hc)
  | direct ho => exact .direct (h.log _ ho rfl)
  | session ho => exact .session (h.log _ ho rfl)

omit [CryptoLib] in
/-- One observation more, and it announces nothing. -/
theorem of_append {o : Obs} (hauthed : c'.now.authed = c.now.authed)
    (hch : c'.now.channels = c.now.channels) (hlog : c'.log = c.log ++ [o])
    (ho : o.announces = false) : Idle c c' := by
  refine ⟨hauthed, hch, fun o' ho' ha => ?_⟩
  rw [hlog, List.mem_append, List.mem_singleton] at ho'
  rcases ho' with ho' | rfl
  · exact ho'
  · rw [ho] at ha
    cases ha

end Idle

omit [CryptoLib] in
theorem Admitted.before (ha : Admitted c') (h : Idle c c') : Admitted c := h.admitted ha

theorem Queues.idle {owner : Option UInt32} {payload : Bytes} (h : Queues owner payload c c') :
    Idle c c' := by
  obtain ⟨wire, hlog⟩ := h.log
  exact .of_append (congrArg (·.conn.authed) h.control) h.channels hlog rfl

omit [CryptoLib] in
theorem Draws.idle (h : Draws c c') : Idle c c' := by
  cases h
  exact ⟨rfl, rfl, fun _ h _ => h⟩

theorem Sends.idle {owner : Option UInt32} {payload : Bytes} (h : Sends owner payload c c') :
    Idle c c' := by
  rcases h with h | ⟨-, h⟩
  · exact h.idle
  · exact h.idle

theorem Receives.idle (h : Receives p c c1) : Idle c c1 :=
  .of_append (congrArg (·.conn.authed) h.control) h.channels h.log rfl

theorem Starts.idle (h : Starts c c') : Idle c c' := by
  cases h with
  | mk hq =>
    have h := hq.idle
    exact ⟨h.authed, h.channels, h.log⟩

theorem Joins.idle (h : Joins c c') : Idle c c' := by
  cases h with
  | running hk => exact .refl c
  | started hk hs => exact hs.idle

theorem Switches.idle {pk : PendingKeys} (h : Switches pk c c') : Idle c c' := by
  cases h with
  | mk hpk hq =>
    have h := hq.idle
    exact ⟨h.authed, h.channels, h.log⟩

theorem HangsUp.idle {reason : UInt32} {msg : String} (h : HangsUp reason msg c c') :
    Idle c c' := by
  cases h with
  | again hc => exact .refl c
  | first hc hs => exact hs.idle.trans (.of_append rfl rfl rfl rfl)

theorem Denies.idle (h : Denies cfg c c') : Idle c c' := by
  cases h with
  | soft hlt hq => exact hq.idle
  | hard hge hh => exact hh.idle

theorem Greets.idle (h : Greets c c') : Idle c c' := by
  cases h with
  | silent hr he => exact .refl c
  | extInfo hr he hq => exact hq.idle
  | service hr hq => exact hq.idle

theorem SendsData.admitted {id : UInt32} {chunks : List Bytes} (h : SendsData id c chunks c')
    (ha : Admitted c') : Admitted c := by
  cases h with
  | done => exact ha
  | defer hch hne hallow hgate htail => exact .channel hch
  | wire hch hne hallow hgate hr hq htail => exact .channel hch

/-- A step works on live channels, or needs an authenticated client. -/
theorem Step.admitted {k : Cause} (h : Step k c c') (ha : Admitted c') : Admitted c := by
  cases h with
  | pull =>
    obtain ⟨_, _, _, _, h⟩ := c.now.pullCurrentOut_eq
    rw [h] at ha
    exact ha.before ⟨rfl, rfl, fun _ h _ => h⟩
  | @drain _ b m hb hm =>
    obtain ⟨_, _, _, _, _, h⟩ := c.now.pullDrained_eq b (min m b.length)
    rw [h] at ha
    exact ha.before ⟨rfl, rfl, fun _ h _ => h⟩
  | popEvent => exact ha.before ⟨rfl, rfl, fun _ h _ => h⟩
  | roundRobin => exact ha.before ⟨rfl, rfl, fun _ h _ => h⟩
  | tick => exact ha.before ⟨rfl, rfl, fun _ h _ => h⟩
  | draw h => exact h.idle.admitted ha
  | startKex hk hs h => exact h.idle.admitted ha
  | hangUp h => exact h.idle.admitted ha
  | closeEvent id => exact ha.before (.of_append rfl rfl rfl rfl)
  | sendData h hn hdata => exact h.admitted (ha.before (.of_append rfl rfl rfl rfl))
  | sendLost h hch hgate hr hsoft hhard => exact h.admitted (.channel hch)
  | openLocal hrole hauth ha' hs => exact .authed hauth
  | consume hch hq => exact .channel hch
  | grantSilent hgate hch hadd hpos hr => exact .channel hch
  | grant hgate hch hadd hpos hr hq => exact .channel hch
  | flush hch hcan hp hne hq => exact .channel hch
  | flushLost hch hcan hp hne hhard => exact .channel hch
  | askEof hch he hc => exact .channel hch
  | askClose hgate hch hc => exact .channel hch
  | closeAgain hch hc hw => exact .channel hch
  | closeSilent hgate hch hc hw hr => exact .channel hch
  | closeNow hgate hch hc hw hr hq => exact .channel hch
  | emitEofSilent hgate hch he hw hr => exact .channel hch
  | emitEof hgate hch he hw hr hq => exact .channel hch
  | emitCloseSilent hgate hch hc hw hr => exact .channel hch
  | emitClose hgate hch hc hw hr hq => exact .channel hch
  | freeClosed hch hg hw => exact .channel hch
  | confirmSilent hch hr => exact .channel hch
  | confirm hch hr hq => exact .channel hch
  | failOpen hch hr hs => exact .channel hch

omit [CryptoLib] in
theorem admitted_withoutChannel {id : UInt32} {ev : Event} (hev : (Obs.emitted ev).announces = false)
    (h : Admitted (withEvent (withoutChannel c id) ev)) : Admitted c := by
  cases hch : c.now.channels.get? id with
  | some ch => exact .channel hch
  | none =>
    refine h.before (.of_append rfl ?_ ?_ hev)
    · exact ChannelTable.release_of_none hch
    · simp [withEvent, withoutChannel, hch]

/-- A handler admits the peer only by USERAUTH_SUCCESS or a correct password. -/
theorem Handles.admitted (h : Handles p c c') (ha : Admitted c') :
    Admitted c ∨ IsMsg .userauthSuccess p ∨ ∃ cfg user password, c.now.server = some cfg ∧
      Msg.passwordRequest user password <+: p ∧ cfg.checkPassword user password = true := by
  have hidle : ∀ {c1 : Conn}, Receives p c c1 → Admitted c1 → Admitted c :=
    fun hr h => hr.idle.admitted h
  cases h with
  | userauthSuccess hr hm => exact .inr (.inl hm)
  | authAccept hr hrole hcfg hm hok hq => exact .inr (.inr ⟨_, _, _, hr.server ▸ hcfg, hm, hok⟩)
  | skip hr h => exact .inl (hidle hr ha)
  | answer hr h hq => exact .inl (hidle hr (hq.idle.admitted ha))
  | kexinitServer hr hm hrole hp hj hk hn =>
    refine .inl (hidle hr (hj.idle.admitted (ha.before ⟨rfl, rfl, fun _ h _ => h⟩)))
  | kexinitClient hr hm hrole hp hj hk hn hpub hq =>
    have h := hq.idle.admitted ha
    refine .inl (hidle hr (hj.idle.admitted (h.before ⟨rfl, rfl, fun _ h _ => h⟩)))
  | ecdhInit hr hrole hm hcfg hx hz hq hs =>
    have h := (hq.idle.trans hs.idle).admitted ha
    exact .inl (hidle hr (h.before ⟨rfl, rfl, fun _ h _ => h⟩))
  | ecdhReply hr hrole hm hpub hsec hx hks hsig hz hs =>
    have h := hs.idle.admitted ha
    exact .inl (hidle hr (h.before ⟨rfl, rfl, fun _ h _ => h⟩))
  | newkeysFirst hr hm hpk hf hg =>
    have h := hg.idle.admitted ha
    exact .inl (hidle hr (h.before (.of_append rfl rfl rfl rfl)))
  | newkeysAgain hr hm hpk hf =>
    exact .inl (hidle hr (ha.before (.of_append rfl rfl rfl rfl)))
  | authReject hr hrole hcfg hm hbad hd =>
    have h := hd.idle.admitted ha
    exact .inl (hidle hr (h.before (.of_append rfl rfl rfl rfl)))
  | authOther hr hrole hcfg hm hd => exact .inl (hidle hr (hd.idle.admitted ha))
  | disconnect hr hm => exact .inl (hidle hr (ha.before (.of_append rfl rfl rfl rfl)))
  | openSession hr hm hauth ha' => exact .inl (hidle hr (.authed hauth))
  | openDirect hr hm hauth ha' => exact .inl (hidle hr (.authed hauth))
  | openConfirm hr hm hch => exact .inl (hidle hr (.channel hch))
  | openFail hr hm => exact .inl (hidle hr (admitted_withoutChannel rfl ha))
  | windowAdjust hr hm hch => exact .inl (hidle hr (.channel hch))
  | deliver hr hm hch hw => exact .inl (hidle hr (.channel hch))
  | peerEof hr hm hch => exact .inl (hidle hr (.channel hch))
  | peerEofUnknown hr hm hch => exact .inl (hidle hr (ha.before (.of_append rfl rfl rfl rfl)))
  | peerClose hr hm hch => exact .inl (hidle hr (.channel hch))

theorem Faults.admitted (h : Faults c c') (ha : Admitted c') : Admitted c := by
  cases h with
  | reject h => exact h.idle.admitted ha
  | spoil h hm => exact h.idle.admitted (ha.before ⟨rfl, rfl, fun _ h _ => h⟩)
  | drop hkind => exact ha.before ⟨rfl, rfl, fun _ h _ => h⟩
  | identBad h => exact ha.before ⟨rfl, rfl, fun _ h _ => h⟩

/-- The invariant: whoever is admitted has presented a correct password. -/
theorem Move.presented (h : Move c c') (hcfg : c.now.server = some cfg)
    (hno : ∀ before p, Obs.handled before p ∈ c'.log → ¬IsMsg .userauthSuccess p)
    (hI : Admitted c → Presented cfg c.log) (ha : Admitted c') : Presented cfg c'.log := by
  have hkeep : Presented cfg c.log → Presented cfg c'.log := by
    rintro ⟨x, hx, hrest⟩
    exact ⟨x, mem_handledPackets.mpr (h.log.subset (mem_handledPackets.mp hx)), hrest⟩
  cases h with
  | quiet h =>
    cases h with
    | step h => exact hkeep (hI (h.admitted ha))
    | identWait h hno => exact hkeep (hI (ha.before ⟨rfl, rfl, fun _ h _ => h⟩))
    | identDone h hs => exact hkeep (hI (ha.before ⟨rfl, rfl, fun _ h _ => h⟩))
    | @handle _ p h =>
      have hp : Obs.handled c.now p ∈ c'.log := h.log.subset (by simp)
      rcases h.admitted ha with h | hm | ⟨cfg', user, password, hcfg', hm, hok⟩
      · exact hkeep (hI h)
      · exact absurd hm (hno _ _ hp)
      · cases hcfg.symm.trans hcfg'
        exact ⟨(_, p), mem_handledPackets.mpr hp, user, password, hm, hok⟩
  | fault h => exact hkeep (hI (h.admitted ha))
  | recv bytes => exact hkeep (hI (ha.before ⟨rfl, rfl, fun _ h _ => h⟩))
  | own h => exact hkeep (hI (h.admitted ha))

namespace Setup

/-- A server that handles no USERAUTH_SUCCESS admits a peer only after a
    password request with a correct password. -/
theorem run_presented {rng : Rng} {calls : List Call} {c : Conn}
    (hrun : (Setup.server cfg).run rng calls = .ok () c)
    (hno : ∀ x ∈ handledPackets c.log, ¬IsMsg .userauthSuccess x.2)
    (ha : Admitted c) : Presented cfg c.log := by
  have hinv : c.now.server = some cfg ∧ (Admitted c → Presented cfg c.log) := by
    refine run_invariant (I := fun c => c.now.server = some cfg ∧
      (Admitted c → Presented cfg c.log))
      (G := fun o => ∀ before p, o = .handled before p → ¬IsMsg .userauthSuccess p) ?_ ?_ hrun ?_
    · intro c0 h0
      refine ⟨congrArg (·.server) h0.extends.settings, fun ha => ?_⟩
      cases h0.idle.admitted ha with
      | authed h => cases h
      | channel h => cases h
      | direct h => cases h
      | session h => cases h
    · intro c c' _ ⟨hcfg, hI⟩ hm hG
      refine ⟨(congrArg (·.server) hm.settings).trans hcfg, fun ha => ?_⟩
      exact hm.presented hcfg (fun before p hp => hG _ hp before p rfl) hI ha
    · rintro _ ho before p rfl
      exact hno (before, p) (mem_handledPackets.mpr ho)
  exact hinv.2 ha

/-- A peer that logs in over the bare connection. -/
def passwordLogin : List Call :=
  [.recv (Toy.identLine ++ Toy.clearPacket (Msg.passwordRequest "proxy" "secret")), .processIn]

omit [CryptoLib] in
theorem run_presented_passwordLogin : ∃ c,
    @Setup.run Toy.lib (.server Toy.server) Toy.rng passwordLogin = .ok () c ∧
      Admitted c ∧ Presented Toy.server c.log := by
  have hpass : (@Setup.run Toy.lib (.server Toy.server) Toy.rng passwordLogin).passes (fun c =>
      c.now.authed && decide (∀ x ∈ handledPackets c.log, ¬IsMsg .userauthSuccess x.2)) = true := by
    decide +kernel
  obtain ⟨_, c, hrun, hc⟩ := Outcome.exists_of_passes hpass
  rw [Bool.and_eq_true, decide_eq_true_iff] at hc
  exact ⟨c, hrun, .authed hc.1, @run_presented Toy.lib _ _ _ c hrun hc.2 (.authed hc.1)⟩

/-- A peer that sends a server the message only a server sends. -/
def successToServer : List Call :=
  [.recv (Toy.identLine ++ Toy.clearPacket [MsgType.userauthSuccess.code]), .processIn]

omit [CryptoLib] in
/-- It is admitted without a password. -/
theorem admitted_without_password : ¬∀ (lib : CryptoLib) (cfg : ServerConfig) (rng : Rng)
    (calls : List Call) (c : Conn),
    @Setup.run lib (.server cfg) rng calls = .ok () c → Admitted c → Presented cfg c.log := by
  intro hclaim
  have hpass : (@Setup.run Toy.lib (.server Toy.server) Toy.rng successToServer).passes (fun c =>
      c.now.authed && decide (∀ x ∈ handledPackets c.log, ¬IsMsg .userauthRequest x.2)) = true := by
    decide +kernel
  obtain ⟨_, c, hrun, hc⟩ := Outcome.exists_of_passes hpass
  rw [Bool.and_eq_true, decide_eq_true_iff] at hc
  obtain ⟨⟨before, p⟩, hx, user, password, ⟨r, rfl⟩, -⟩ := hclaim _ _ _ _ c hrun (.authed hc.1)
  exact hc.2 _ hx rfl

end Setup

-- ============================================================================
-- No authentication in the clear
-- ============================================================================

/-- The last packet handled, `last` being the one before. -/
def lastHandled (last : Option (Connection × Bytes)) : List Obs → Option (Connection × Bytes)
  | [] => last
  | .handled before p :: l => lastHandled (some (before, p)) l
  | _ :: l => lastHandled last l

/-- The packets whose handling set `authed`, each with the state in which it
    arrived; `last` is the last packet handled before. -/
def authPackets (last : Option (Connection × Bytes)) : List Obs → List (Connection × Bytes)
  | [] => []
  | .handled before p :: l => authPackets (some (before, p)) l
  | .authenticated _ :: l => last.toList ++ authPackets last l
  | _ :: l => authPackets last l

omit [CryptoLib] in
theorem authPackets_append (last : Option (Connection × Bytes)) (l l' : List Obs) :
    authPackets last (l ++ l') = authPackets last l ++ authPackets (lastHandled last l) l' := by
  induction l generalizing last with
  | nil => rfl
  | cons o l ih =>
    cases o with
    | handled before p => exact ih _
    | authenticated before =>
      simp only [List.cons_append, authPackets, lastHandled, ih, List.append_assoc]
    | _ => exact ih _

omit [CryptoLib] in
theorem lastHandled_append (last : Option (Connection × Bytes)) (l l' : List Obs) :
    lastHandled last (l ++ l') = lastHandled (lastHandled last l) l' := by
  induction l generalizing last with
  | nil => rfl
  | cons o l ih =>
    cases o <;> exact ih _

omit [CryptoLib] in
theorem authPackets_routine (last : Option (Connection × Bytes)) {l : List Obs}
    (h : ∀ o ∈ l, o.Routine) : authPackets last l = [] := by
  induction l with
  | nil => rfl
  | cons o l ih =>
    have ih := ih fun o ho => h o (List.mem_cons_of_mem _ ho)
    have ho := h o (List.mem_cons_self ..)
    cases o with
    | handled before p => exact ho.elim
    | authenticated before => exact ho.elim
    | _ => exact ih

omit [CryptoLib] in
theorem Grows.authPackets {l l' : List Obs} (h : Grows l l') :
    authPackets none l' = authPackets none l := by
  obtain ⟨new, rfl, hnew⟩ := h
  rw [authPackets_append, authPackets_routine _ hnew, List.append_nil]

/-- `authed` comes after the first key exchange, and every packet that set it
    was encrypted. -/
structure SecretLogin (c : Conn) : Prop where
  firstKexDone : c.now.authed = true → c.now.firstKexDone = true
  packet : c.now.authed = true → authPackets none c.log ≠ []
  encrypted : ∀ x ∈ authPackets none c.log, x.1.recvCipher ≠ .clear

/-- The messages by which a server lets a peer in. -/
def LogsIn (cfg : ServerConfig) (p : Bytes) : Prop :=
  IsMsg .userauthSuccess p ∨
    ∃ user password, Msg.passwordRequest user password <+: p ∧ cfg.checkPassword user password = true

namespace SecretLogin

omit [CryptoLib] in
/-- Moves that neither log anybody in nor take the flag back. -/
theorem keep (h : SecretLogin c) (hauth : c'.now.authed = c.now.authed)
    (hrise : c.now.firstKexDone = true → c'.now.firstKexDone = true)
    (hlog : authPackets none c'.log = authPackets none c.log) : SecretLogin c' := by
  refine ⟨fun ha => hrise (h.firstKexDone (hauth ▸ ha)), fun ha => ?_, ?_⟩
  · rw [hlog]
    exact h.packet (hauth ▸ ha)
  · rw [hlog]
    exact h.encrypted

omit [CryptoLib] in
/-- A login after the first key exchange. -/
theorem login (h : SecretLogin c) (hwf : WellFormed c) (hf : c.now.firstKexDone = true)
    (hs : c'.now.standing = { c.now.standing with authed := true })
    (hlog : authPackets none c'.log = authPackets none c.log ++ [(c.now, p)]) : SecretLogin c' := by
  have hf' : c'.now.firstKexDone = c.now.firstKexDone := congrArg (·.firstKexDone) hs
  refine ⟨fun _ => hf'.trans hf, fun _ => ?_, ?_⟩
  · rw [hlog]
    simp
  · intro x hx
    rw [hlog, List.mem_append, List.mem_singleton] at hx
    rcases hx with hx | rfl
    · exact h.encrypted x hx
    · exact (hwf.encrypted hf).recv.1

omit [CryptoLib] in
theorem handled (h : SecretLogin c) (hwf : WellFormed c) (hcfg : c.now.server = some cfg)
    (hno : c.now.firstKexDone = false → ¬LogsIn cfg p) (he : AuthEffect p c c') :
    SecretLogin c' := by
  have hdone : LogsIn cfg p → c.now.firstKexDone = true := fun hl =>
    (Bool.eq_false_or_eq_true _).resolve_right fun hf => hno hf hl
  have hhandled : ∀ l', authPackets none (c.log ++ [.handled c.now p] ++ l')
      = authPackets none c.log ++ authPackets (some (c.now, p)) l' := by
    intro l'
    rw [authPackets_append, authPackets_append, lastHandled_append]
    simp [authPackets, lastHandled]
  have hplain : authPackets none (c.log ++ [.handled c.now p]) = authPackets none c.log := by
    have h := hhandled []
    rwa [List.append_nil, authPackets, List.append_nil] at h
  cases he with
  | none hs hl =>
    exact h.keep (congrArg (·.authed) hs) (fun hf => (congrArg (·.firstKexDone) hs).trans hf)
      (hl.authPackets.trans hplain)
  | kexDone hb hs hl =>
    refine h.keep (congrArg (·.authed) hs) (fun _ => congrArg (·.firstKexDone) hs)
      (hl.authPackets.trans ((hhandled _).trans ?_))
    simp [authPackets]
  | closed hs hl =>
    exact h.keep (congrArg (·.authed) hs) (fun hf => (congrArg (·.firstKexDone) hs).trans hf)
      (hl.authPackets.trans hplain)
  | success hm hb hs hl =>
    refine h.login (p := p) hwf (hdone (.inl hm)) hs (hl.authPackets.trans ((hhandled _).trans ?_))
    simp [authPackets]
  | accept hcfg' hm hok hb hs hl =>
    cases hcfg.symm.trans hcfg'
    refine h.login (p := p) hwf (hdone (.inr ⟨_, _, hm, hok⟩)) hs (hl.authPackets.trans ?_)
    rw [List.append_assoc, hhandled]
    simp [authPackets]
  | reject hcfg' hm hs hl =>
    have hlog := hl.authPackets.trans (hhandled _)
    simp only [authPackets, List.append_nil] at hlog
    generalize hs' : c'.now.standing = s' at hs
    cases hs with
    | soft hlt => exact h.keep (congrArg (·.authed) hs') (fun hf =>
        (congrArg (·.firstKexDone) hs').trans hf) hlog
    | hard hge => exact h.keep (congrArg (·.authed) hs') (fun hf =>
        (congrArg (·.firstKexDone) hs').trans hf) hlog
  | refuse hcfg' hs hl =>
    have hlog := hl.authPackets.trans hplain
    generalize hs' : c'.now.standing = s' at hs
    cases hs with
    | soft hlt => exact h.keep (congrArg (·.authed) hs') (fun hf =>
        (congrArg (·.firstKexDone) hs').trans hf) hlog
    | hard hge => exact h.keep (congrArg (·.authed) hs') (fun hf =>
        (congrArg (·.firstKexDone) hs').trans hf) hlog

end SecretLogin

theorem Move.secretLogin (hm : Move c c') (h : SecretLogin c) (hwf : WellFormed c)
    (hcfg : c.now.server = some cfg)
    (hno : ∀ before p, Obs.handled before p ∈ c'.log → before.firstKexDone = false →
      ¬LogsIn cfg p) : SecretLogin c' := by
  rcases hm.authEffect with ⟨hs, hl⟩ | ⟨p, hp, he⟩
  · refine h.keep ?_ hm.rises.firstKexDone hl.authPackets
    rcases hs with hs | hs
    · exact congrArg (·.authed) hs
    · exact congrArg (·.authed) hs
  · exact h.handled hwf hcfg (hno _ _ hp) he

namespace Setup

/-- If no message that logs a peer in is handled before the end of the first
    key exchange, then no peer is logged in by a packet in the clear. -/
theorem run_secretLogin {rng : Rng} {calls : List Call} {c : Conn}
    (hrun : (Setup.server cfg).run rng calls = .ok () c)
    (hno : ∀ x ∈ handledPackets c.log, x.1.firstKexDone = false → ¬LogsIn cfg x.2) :
    SecretLogin c := by
  have hinv : c.now.server = some cfg ∧ SecretLogin c := by
    refine run_invariant (I := fun c => c.now.server = some cfg ∧ SecretLogin c)
      (G := fun o => ∀ before p, o = .handled before p → before.firstKexDone = false →
        ¬LogsIn cfg p) ?_ ?_ hrun ?_
    · intro c0 h0
      have hs := h0.standing
      have hauth : c0.now.authed = false := congrArg (·.authed) hs
      refine ⟨congrArg (·.server) h0.extends.settings, ?_, ?_, ?_⟩
      · exact fun ha => absurd (hauth.symm.trans ha) (by decide)
      · exact fun ha => absurd (hauth.symm.trans ha) (by decide)
      · rw [h0.extends.log.authPackets]
        exact fun x hx => absurd hx List.not_mem_nil
    · intro c c' hwf ⟨hcfg, hI⟩ hm hG
      refine ⟨(congrArg (·.server) hm.settings).trans hcfg, ?_⟩
      exact hm.secretLogin hI hwf hcfg fun before p hp => hG _ hp before p rfl
    · rintro _ ho before p rfl
      exact hno (before, p) (mem_handledPackets.mpr ho)
  exact hinv.2

/-- A peer that logs in after a key exchange. -/
def encryptedLogin : List Call :=
  [.recv (Toy.identLine ++ Toy.clearPacket (Toy.kexinit ["curve25519-sha256"] serverCiphers)
      ++ Toy.clearPacket (Msg.ecdhInit Toy.point)
      ++ Toy.clearPacket Msg.newkeys
      ++ Toy.sealedPacket (Msg.passwordRequest "proxy" "secret")), .processIn]

omit [CryptoLib] in
theorem run_secretLogin_encryptedLogin : ∃ c,
    @Setup.run Toy.lib (.server Toy.server) Toy.rng encryptedLogin = .ok () c ∧
      c.now.authed = true ∧ SecretLogin c := by
  have hpass : (@Setup.run Toy.lib (.server Toy.server) Toy.rng encryptedLogin).passes (fun c =>
      c.now.authed && decide (∀ x ∈ handledPackets c.log, x.1.firstKexDone = false →
        ¬IsMsg .userauthSuccess x.2 ∧ ¬IsMsg .userauthRequest x.2)) = true := by
    decide +kernel
  obtain ⟨_, c, hrun, hc⟩ := Outcome.exists_of_passes hpass
  rw [Bool.and_eq_true, decide_eq_true_iff] at hc
  refine ⟨c, hrun, hc.1, @run_secretLogin Toy.lib _ _ _ c hrun fun x hx hf => ?_⟩
  rintro (hm | ⟨user, password, ⟨r, hr⟩, -⟩)
  · exact (hc.2 x hx hf).1 hm
  · exact (hc.2 x hx hf).2 (by rw [← hr]; rfl)

omit [CryptoLib] in
/-- A correct password logs the peer in before any key exchange. -/
theorem login_in_the_clear : ¬∀ (lib : CryptoLib) (cfg : ServerConfig) (rng : Rng)
    (calls : List Call) (c : Conn),
    @Setup.run lib (.server cfg) rng calls = .ok () c → SecretLogin c := by
  intro hclaim
  have hpass : (@Setup.run Toy.lib (.server Toy.server) Toy.rng passwordLogin).passes (fun c =>
      c.now.authed && !c.now.firstKexDone) = true := by
    decide +kernel
  obtain ⟨_, c, hrun, hc⟩ := Outcome.exists_of_passes hpass
  rw [Bool.and_eq_true] at hc
  have hdone := (hclaim _ _ _ _ c hrun).firstKexDone hc.1
  rw [hdone] at hc
  exact absurd hc.2 (by decide)

end Setup

-- ============================================================================
-- How many passwords a peer may try
-- ============================================================================

/-- How often `check_password` was evaluated to `false`. -/
def failedChecks (l : List Obs) : Nat :=
  l.countP fun o => match o with
    | .passwordChecked _ _ false => true
    | _ => false

/-- At most `max_auth_fails` failed checks, and no login once the limit is
    reached. -/
structure Bounded (cfg : ServerConfig) (c : Conn) : Prop where
  failed : failedChecks c.log ≤ cfg.maxAuthFails.toNat
  login : ∀ b, Obs.authenticated b ∈ c.log → b.authed = false → b.authFails < cfg.maxAuthFails

/-- What `Bounded` rests on: the failures are counted, and the failure that
    reaches the limit closes the connection. -/
structure Counted (cfg : ServerConfig) (c : Conn) : Prop where
  count : failedChecks c.log = c.now.authFails.toNat
  limit : c.now.authFails ≤ cfg.maxAuthFails
  closed : cfg.maxAuthFails ≤ c.now.authFails → c.now.closed = true
  login : ∀ b, Obs.authenticated b ∈ c.log → b.authFails < cfg.maxAuthFails

omit [CryptoLib] in
theorem Grows.failedChecks {l l' : List Obs} (h : Grows l l') : failedChecks l' = failedChecks l := by
  obtain ⟨new, rfl, hnew⟩ := h
  have hzero : Ssproxy.failedChecks new = 0 := by
    refine List.countP_eq_zero.mpr fun o ho => ?_
    cases o with
    | passwordChecked user password ok => exact (hnew _ ho).elim
    | _ => simp
  rw [Ssproxy.failedChecks, List.countP_append]
  exact congrArg (_ + ·) hzero

omit [CryptoLib] in
theorem Grows.authenticated {l l' : List Obs} (h : Grows l l') {b : Connection}
    (hb : Obs.authenticated b ∈ l') : Obs.authenticated b ∈ l := by
  obtain ⟨new, rfl, hnew⟩ := h
  rcases List.mem_append.mp hb with hb | hb
  · exact hb
  · exact (hnew _ hb).elim

/-- A message that tries to log in: it evaluates a password, or it is
    USERAUTH_SUCCESS. -/
def TriesLogin (p : Bytes) : Prop :=
  IsMsg .userauthSuccess p ∨ ∃ user password, Msg.passwordRequest user password <+: p

namespace Counted

omit [CryptoLib] in
/-- Moves that count nothing. -/
theorem keep (h : Counted cfg c) (hfails : c'.now.authFails = c.now.authFails)
    (hclosed : c.now.closed = true → c'.now.closed = true)
    (hcount : failedChecks c'.log = failedChecks c.log)
    (hlogin : ∀ b, Obs.authenticated b ∈ c'.log → Obs.authenticated b ∉ c.log →
      b.authFails < cfg.maxAuthFails) : Counted cfg c' := by
  refine ⟨?_, ?_, ?_, ?_⟩
  · rw [hcount, hfails]
    exact h.count
  · rw [hfails]
    exact h.limit
  · rw [hfails]
    exact fun hge => hclosed (h.closed hge)
  · intro b hb
    by_cases hold : Obs.authenticated b ∈ c.log
    · exact h.login b hold
    · exact hlogin b hb hold

omit [CryptoLib] in
/-- One more failed check, with the connection closed if it was the last. -/
theorem fail (h : Counted cfg c) (hlt : c.now.authFails < cfg.maxAuthFails)
    (hs : Refuses cfg { c.now.standing with authFails := c.now.authFails + 1 } c'.now.standing)
    (hcount : failedChecks c'.log = failedChecks c.log + 1)
    (hlogin : ∀ b, Obs.authenticated b ∈ c'.log → Obs.authenticated b ∈ c.log) :
    Counted cfg c' := by
  have hlt' := UInt32.lt_iff_toNat_lt.mp hlt
  have hmax := cfg.maxAuthFails.toNat_lt
  have hnat : (c.now.authFails + 1).toNat = c.now.authFails.toNat + 1 := by
    rw [UInt32.toNat_add, UInt32.toNat_one, Nat.mod_eq_of_lt (by omega)]
  have hfails : c'.now.authFails = c.now.authFails + 1 := by
    generalize hs' : c'.now.standing = s' at hs
    cases hs with
    | soft _ => exact congrArg (·.authFails) hs'
    | hard _ => exact congrArg (·.authFails) hs'
  refine ⟨?_, ?_, ?_, fun b hb => h.login b (hlogin b hb)⟩
  · rw [hcount, hfails, hnat, h.count]
  · rw [hfails, UInt32.le_iff_toNat_le, hnat]
    exact hlt'
  · intro hge
    rw [hfails] at hge
    generalize hs' : c'.now.standing = s' at hs
    cases hs with
    | soft hlt => exact absurd hge (UInt32.not_le.mpr hlt)
    | hard _ => exact congrArg (·.closed) hs'

omit [CryptoLib] in
theorem handled (h : Counted cfg c) (hcfg : c.now.server = some cfg)
    (hno : c.now.closed = true → cfg.maxAuthFails ≤ c.now.authFails → ¬TriesLogin p)
    (he : AuthEffect p c c') : Counted cfg c' := by
  -- whoever tries to log in is below the limit
  have hlt : TriesLogin p → c.now.authFails < cfg.maxAuthFails := fun ht =>
    UInt32.not_le.mp fun hge => hno (h.closed hge) hge ht
  have hcount : ∀ l', failedChecks (c.log ++ [.handled c.now p] ++ l')
      = failedChecks c.log + failedChecks l' := by
    intro l'
    simp [failedChecks, List.countP_append]
  have hplain : failedChecks (c.log ++ [.handled c.now p]) = failedChecks c.log := by
    simp [failedChecks, List.countP_append]
  have hmem : ∀ {b : Connection}, Obs.authenticated b ∈ c.log ++ [.handled c.now p] →
      Obs.authenticated b ∈ c.log := by
    intro b hb
    simpa using hb
  cases he with
  | none hs hl =>
    exact h.keep (congrArg (·.authFails) hs) (fun hc => (congrArg (·.closed) hs).trans hc)
      (hl.failedChecks.trans hplain) fun b hb hnot => absurd (hmem (hl.authenticated hb)) hnot
  | kexDone hb hs hl =>
    refine h.keep (congrArg (·.authFails) hs) (fun hc => (congrArg (·.closed) hs).trans hc)
      (hl.failedChecks.trans (hcount _)) fun b hb hnot => absurd ?_ hnot
    simpa using hl.authenticated hb
  | closed hs hl =>
    exact h.keep (congrArg (·.authFails) hs) (fun _ => congrArg (·.closed) hs)
      (hl.failedChecks.trans hplain) fun b hb hnot => absurd (hmem (hl.authenticated hb)) hnot
  | @success b hm hb hs hl =>
    refine h.keep (congrArg (·.authFails) hs) (fun hc => (congrArg (·.closed) hs).trans hc)
      (hl.failedChecks.trans (hcount _)) fun b' hb' hnot => ?_
    rcases List.mem_append.mp (hl.authenticated hb') with hold | hnew
    · exact absurd (hmem hold) hnot
    · cases List.mem_singleton.mp hnew
      have hfails : b.authFails = c.now.authFails := congrArg (·.authFails) hb
      rw [hfails]
      exact hlt (.inl hm)
  | @accept cfg' user password b hcfg' hm hok hb hs hl =>
    refine h.keep (congrArg (·.authFails) hs) (fun hc => (congrArg (·.closed) hs).trans hc)
      (hl.failedChecks.trans ?_) fun b' hb' hnot => ?_
    · rw [List.append_assoc]
      exact hcount _
    rcases List.mem_append.mp (hl.authenticated hb') with hold | hnew
    · exact absurd (by simpa using hold) hnot
    · cases List.mem_singleton.mp hnew
      have hfails : b.authFails = c.now.authFails := congrArg (·.authFails) hb
      rw [hfails]
      exact hlt (.inr ⟨_, _, hm⟩)
  | reject hcfg' hm hs hl =>
    cases hcfg.symm.trans hcfg'
    refine h.fail (hlt (.inr ⟨_, _, hm⟩)) hs (hl.failedChecks.trans (hcount _)) fun b hb => ?_
    simpa using hl.authenticated hb
  | refuse hcfg' hs hl =>
    generalize hs' : c'.now.standing = s' at hs
    cases hs with
    | soft _ =>
      exact h.keep (congrArg (·.authFails) hs') (fun hc => (congrArg (·.closed) hs').trans hc)
        (hl.failedChecks.trans hplain) fun b hb hnot => absurd (hmem (hl.authenticated hb)) hnot
    | hard _ =>
      exact h.keep (congrArg (·.authFails) hs') (fun _ => congrArg (·.closed) hs')
        (hl.failedChecks.trans hplain) fun b hb hnot => absurd (hmem (hl.authenticated hb)) hnot

end Counted

theorem Move.counted (hm : Move c c') (h : Counted cfg c) (hcfg : c.now.server = some cfg)
    (hno : ∀ before p, Obs.handled before p ∈ c'.log → before.closed = true →
      cfg.maxAuthFails ≤ before.authFails → ¬TriesLogin p) : Counted cfg c' := by
  rcases hm.authEffect with ⟨hs, hl⟩ | ⟨p, hp, he⟩
  · refine h.keep ?_ hm.rises.closed hl.failedChecks fun b hb hnot =>
      absurd (hl.authenticated hb) hnot
    rcases hs with hs | hs
    · exact congrArg (·.authFails) hs
    · exact congrArg (·.authFails) hs
  · exact h.handled hcfg (hno _ _ hp) he

namespace Setup

/-- A server that does not look at logins once the failure limit has closed the
    connection keeps the limit. -/
theorem run_bounded {rng : Rng} {calls : List Call} {c : Conn} (hmax : 1 ≤ cfg.maxAuthFails)
    (hrun : (Setup.server cfg).run rng calls = .ok () c)
    (hno : ∀ x ∈ handledPackets c.log, x.1.closed = true → cfg.maxAuthFails ≤ x.1.authFails →
      ¬TriesLogin x.2) : Bounded cfg c := by
  have hinv : c.now.server = some cfg ∧ Counted cfg c := by
    refine run_invariant (I := fun c => c.now.server = some cfg ∧ Counted cfg c)
      (G := fun o => ∀ before p, o = .handled before p → before.closed = true →
        cfg.maxAuthFails ≤ before.authFails → ¬TriesLogin p) ?_ ?_ hrun ?_
    · intro c0 h0
      have hfails : c0.now.authFails = 0 := congrArg (·.authFails) h0.standing
      refine ⟨congrArg (·.server) h0.extends.settings, ?_, ?_, ?_, ?_⟩
      · rw [h0.extends.log.failedChecks, hfails]
        rfl
      · rw [hfails]
        exact UInt32.zero_le
      · rw [hfails]
        exact fun hge => absurd (UInt32.le_trans hmax hge) (by decide)
      · intro b hb
        exact absurd (h0.extends.log.authenticated hb) List.not_mem_nil
    · intro c c' _ ⟨hcfg, hI⟩ hm hG
      refine ⟨(congrArg (·.server) hm.settings).trans hcfg, ?_⟩
      exact hm.counted hI hcfg fun before p hp => hG _ hp before p rfl
    · rintro _ ho before p rfl
      exact hno (before, p) (mem_handledPackets.mpr ho)
  refine ⟨?_, fun b hb _ => hinv.2.login b hb⟩
  rw [hinv.2.count]
  exact UInt32.le_iff_toNat_le.mp hinv.2.limit

/-- A peer that tries one wrong password after the other. -/
def guesses (n : Nat) : List Call :=
  [.recv (Toy.identLine ++ (List.replicate n (Toy.clearPacket
    (Msg.passwordRequest "proxy" "guess"))).flatten), .processIn]

omit [CryptoLib] in
/-- Two guesses, of the three that the default configuration allows. -/
theorem run_bounded_two_guesses : ∃ c,
    @Setup.run Toy.lib (.server Toy.server) Toy.rng (guesses 2) = .ok () c ∧
      failedChecks c.log = 2 ∧ Bounded Toy.server c := by
  have hpass : (@Setup.run Toy.lib (.server Toy.server) Toy.rng (guesses 2)).passes (fun c =>
      failedChecks c.log == 2 && decide (∀ x ∈ handledPackets c.log, x.1.closed = false)) = true := by
    decide +kernel
  obtain ⟨_, c, hrun, hc⟩ := Outcome.exists_of_passes hpass
  rw [Bool.and_eq_true, beq_iff_eq, decide_eq_true_iff] at hc
  refine ⟨c, hrun, hc.1, @run_bounded Toy.lib _ _ _ c (by decide) hrun fun x hx hclosed => ?_⟩
  rw [hc.2 x hx] at hclosed
  cases hclosed

omit [CryptoLib] in
/-- All guesses in one buffer are evaluated, whatever the limit. -/
theorem guesses_over_the_limit : ¬∀ (lib : CryptoLib) (cfg : ServerConfig) (rng : Rng)
    (calls : List Call) (c : Conn), 1 ≤ cfg.maxAuthFails →
    @Setup.run lib (.server cfg) rng calls = .ok () c → Bounded cfg c := by
  intro hclaim
  have hpass : (@Setup.run Toy.lib (.server Toy.server) Toy.rng (guesses 5)).passes (fun c =>
      failedChecks c.log == 5) = true := by
    decide +kernel
  obtain ⟨_, c, hrun, hc⟩ := Outcome.exists_of_passes hpass
  have hle := (hclaim _ _ _ _ c (by decide) hrun).failed
  rw [beq_iff_eq.mp hc] at hle
  exact absurd hle (by decide)

end Setup

end Ssproxy
