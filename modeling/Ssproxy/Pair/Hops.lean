/-
  Ssproxy.Pair.Hops

  The moves of one end between its contacts with the peer.  A call that does
  not fail in `process_in` is made of hops, one that fails ends with a packet
  that was not handled to the end; `consume_out` besides hands the first of the
  bytes held to the socket.
-/

import Ssproxy.Pair.Coupled
import Ssproxy.Refine.Run
import Ssproxy.Auth
import Ssproxy.Message

namespace Ssproxy

open Lib Wire Connection Relation

variable [CryptoLib]

/-- A request with a correct password is granted. -/
def Admits (p : Bytes) (c c' : Conn) : Prop :=
  ∀ (cfg : ServerConfig) (user password : String), c.now.role = .server →
    c.now.server = some cfg → p = Msg.passwordRequest user password → p.length < 2 ^ 32 →
    cfg.checkPassword user password = true → c'.now.authed = true

/-- A move of one end on its own: a step, a packet that has arrived, or the ident
    line of the peer. -/
inductive Hop (c : Conn) : Conn → Prop where
  | step {c' : Conn} {k : Cause} (h : Step k c c') (hk : ∀ n, k ≠ .call (.consumeOut n)) : Hop c c'
  | serve {c' : Conn} {p : Bytes} (hid : c.now.identInDone = true) (h : Handles p c c')
      (ha : Admits p c c') : Hop c c'
  | identWait (hid : c.now.identInDone = false)
      (hno : (c.now.identAcc ++ c.now.readBuf).findIdx? (· == 10) = none) :
      Hop c ⟨{ c.now with identAcc := c.now.identAcc ++ c.now.readBuf, readBuf := [] }, c.log⟩
  | identDone {s : String} {rest : Bytes} (hid : c.now.identInDone = false)
      (hs : IdentLine (c.now.identAcc ++ c.now.readBuf) s rest) :
      Hop c ⟨{ c.now with
        identAcc := [], readBuf := rest, identPeer := some s, identInDone := true }, c.log⟩

/-- Sequences of hops. -/
abbrev Hops : Conn → Conn → Prop := ReflTransGen Hop

/-- What a failure leaves in the history: nothing, or a packet that was not
    handled to the end. -/
inductive Falters (c c' : Conn) : Prop where
  | quiet (h : Later c.log c'.log)
  | refused {p : Bytes} {c1 : Conn} (hid : c.now.identInDone = true) (hr : Receives p c c1)
      (h : Later c1.log c'.log)

/-- Hops, and then a failure. -/
inductive Stumbles (c c' : Conn) : Prop where
  | mk {c1 : Conn} (hh : Hops c c1) (ht : Turns c c1) (hf : Falters c1 c')

/-- The socket took `chunk`, the first of the bytes held. -/
structure Drains (chunk : Bytes) (c c' : Conn) : Prop where
  party : c'.now.party = c.now.party
  ident : c'.now.ident = c.now.ident
  inbound : c'.now.inbound = c.now.inbound
  line : c'.now.sendLine = c.now.sendLine
  held : chunk ++ c'.now.held = c.now.held
  log : c'.log = c.log
  calms : ReflTransGen Calm c c'

/-- The socket took `chunk`, and hops followed. -/
inductive Outputs (chunk : Bytes) (c c' : Conn) : Prop where
  | mk {c1 : Conn} (hd : Drains chunk c c1) (hs : Hops c1 c') : Outputs chunk c c'

variable {c c' c1 : Conn} {p : Bytes}

theorem Hop.calm (h : Hop c c') : Calm c c' := by
  cases h with
  | step h hk => exact .own h
  | serve hid h ha => exact .quiet (.handle h)
  | identWait hid hno => exact .quiet (.identWait hid hno)
  | identDone hid hs => exact .quiet (.identDone hid hs)

theorem Hop.moves (h : Hop c c') : Moves c c' := calms_moves (.single h.calm)

theorem Hops.moves (h : Hops c c') : Moves c c' :=
  calms_moves (ReflTransGen.mono (fun _ _ => Hop.calm) _ _ h)

-- ============================================================================
-- The password
-- ============================================================================

/-- Nothing that a connection does on its own makes the peer authenticated. -/
theorem Settles.authed (h : Settles c c') : c'.now.authed = c.now.authed := by
  have htrail := h.trail
  clear h
  induction htrail with
  | refl => rfl
  | tail _ hlast ih =>
    obtain ⟨k, -, hs⟩ := hlast
    rcases hs.standing with hsame | hclosed
    · exact (congrArg (·.authed) hsame).trans ih
    · exact (congrArg (·.authed) hclosed).trans ih

/-- A password request of the peer, with a correct password. -/
theorem onUserauthRequest_admits {cfg : ServerConfig} {user password : String}
    (hrole : c.now.role = .server) (hcfg : c.now.server = some cfg)
    (hlen : (Msg.passwordRequest user password).length < 2 ^ 32)
    (hok : cfg.checkPassword user password = true) :
    (onUserauthRequest (Msg.passwordRequest user password) c).Sat
      (fun _ c' => c'.now.authed = true) (fun _ _ => True) := by
  have hsizes : (strBytes user).length < 2 ^ 32 ∧ (strBytes password).length < 2 ^ 32 := by
    simp only [Msg.passwordRequest, putStr, putBytes, List.length_cons, List.length_append] at hlen
    omega
  obtain ⟨p0, e0, h0⟩ := Parser.call_code .userauthRequest (putStr user ++ putStr "ssh-connection"
    ++ putStr "password" ++ putBool false ++ putStr password) c
  simp only [List.append_assoc] at h0
  obtain ⟨p1, e1, h1⟩ := Parser.call_reads (Parser.reads_str hsizes.1) h0 c
  obtain ⟨p2, e2, h2⟩ := Parser.call_reads (Parser.reads_str (by decide)) h1 c
  obtain ⟨p3, e3, h3⟩ := Parser.call_reads (Parser.reads_str (by decide)) h2 c
  obtain ⟨p4, e4, h4⟩ := Parser.call_reads (Parser.reads_bool false) h3 c
  obtain ⟨p5, e5, -⟩ := Parser.call_reads (Parser.reads_str hsizes.2) (h4.trans (List.append_nil _).symm) c
  have hservice : (Proc.failIf ("ssh-connection" ≠ "ssh-connection") (.protocol "auth service") :
      ConnM Unit) c = .ok () c := by
    rw [Proc.failIf_apply, if_neg (by decide)]
  unfold onUserauthRequest Msg.passwordRequest
  rw [Proc.bind_of_ok (Traced.read_apply c), Proc.ite_apply, if_neg (not_not.mpr hrole),
    Proc.bind_of_ok (unwrap_of_eq hcfg c)]
  -- every field is read back
  rw [Proc.bind_of_ok e0]
  dsimp only
  rw [Proc.bind_of_ok e1]
  dsimp only
  rw [Proc.bind_of_ok e2]
  dsimp only
  rw [Proc.bind_of_ok e3]
  dsimp only
  rw [Proc.bind_of_ok hservice, if_neg (by decide), if_neg (by decide), Proc.bind_of_ok e4]
  dsimp only
  rw [if_neg (by decide), Proc.bind_of_ok e5]
  dsimp only
  rw [Proc.bind_of_ok (Traced.observe_apply _ c), if_pos hok,
    Proc.bind_of_ok (Traced.update_apply _ _), Proc.bind_of_ok (Traced.observe_apply _ _)]
  refine ((queueMsg_short none Msg.userauthSuccess _ (by decide) (by decide +kernel)).mono
    (fun _ _ h => h) fun _ _ h => h.elim).bind fun _ c1 hq => ?_
  exact congrArg (·.conn.authed) hq.control

theorem handlePayload_admits (hr : Receives p c c1) (hwf : WellFormed c1)
    (hid : c1.now.identInDone = true) :
    (handlePayload p c1).Sat (fun _ c' => Handled p c c' ∧ Admits p c c') (fun _ _ => True) := by
  have hhandled := handlePayload_sat hr hwf hid
  cases hrun : handlePayload p c1 with
  | panic => exact hhandled.ne_panic hrun
  | err e c' => trivial
  | ok a c' =>
    refine ⟨hhandled.of_ok hrun, ?_⟩
    intro cfg user password hrole hcfg hp hlen hok
    have hrole1 : c1.now.role = .server := (congrArg (·.role) hr.settings).trans hrole
    have hcfg1 : c1.now.server = some cfg := (congrArg (·.server) hr.settings).trans hcfg
    rw [hp] at hlen hrun
    exact (onUserauthRequest_admits hrole1 hcfg1 hlen hok).of_ok hrun

-- ============================================================================
-- Every call is made of hops
-- ============================================================================

theorem Trail.hops {P : Cause → Prop} (h : Trail P c c') (hP : ∀ n, ¬P (.call (.consumeOut n))) :
    Hops c c' := by
  apply ReflTransGen.mono _ c c' h
  rintro c1 c2 ⟨k, hk, hs⟩
  exact .step hs fun n hn => hP n (hn ▸ hk)

theorem Steps.hops (h : Steps c c') : Hops c c' := Trail.hops h.trail fun _ hn => hn

theorem Handled.hops (h : Handled p c c') (hid : c.now.identInDone = true) (ha : Admits p c c') :
    Hops c c' := by
  obtain ⟨c1, hh, hs⟩ := h.settles
  have ha1 : Admits p c c1 := fun cfg user password hrole hcfg hp hlen hok =>
    hs.authed.symm.trans (ha cfg user password hrole hcfg hp hlen hok)
  exact (Trail.hops hs.trail fun _ hn => hn).head (.serve hid hh ha1)

/-- A quiet move without a packet in it. -/
theorem Quiet.hops (h : Quiet c c') (hlog : c'.log = c.log) : Hops c c' := by
  cases h with
  | step h => exact .single (.step h nofun)
  | handle h =>
    have hgrown := h.log.length_le
    rw [hlog, List.length_append, List.length_singleton] at hgrown
    omega
  | identWait hid hno => exact .single (.identWait hid hno)
  | identDone hid hs => exact .single (.identDone hid hs)

theorem tryIdent_hops (c : Conn) (hid : c.now.identInDone = false) :
    (tryIdent c).Sat (fun _ c' => Hops c c') (fun _ _ => True) := by
  have hquiet := tryIdent_sat c hid
  have hframe := tryIdent_frame c
  cases hrun : tryIdent c with
  | panic => exact hquiet.ne_panic hrun
  | err e c1 => trivial
  | ok _ c1 =>
    obtain ⟨_, _, _, _, hc1⟩ := hframe.of_ok hrun
    exact (hquiet.of_ok hrun).hops (congrArg (·.log) hc1)

theorem Faults.falters (h : Faults c c') : Falters c c' := by
  cases h with
  | reject hr hf hid => exact .refused hid hr (.refl _)
  | spoil hr hm hrole hk hsec hf hid => exact .refused hid hr (.refl _)
  | drop hkind => exact .quiet (.refl _)
  | identBad h => exact .quiet (.refl _)

theorem Failed.falters (h : Failed c c') (hid : c.now.identInDone = true) : Falters c c' := by
  cases h with
  | plain hr hd => exact .refused hid hr hd.extends.log.later
  | spoiled hr hm hrole hk hsec ks => exact .refused hid hr (.refl _)
  | kexinit hr hm hp hj => exact .refused hid hr hj.extends.log.later

theorem Stumbles.after (h : Stumbles c1 c') (hh : Hops c c1) (ht : Turns c c1) :
    Stumbles c c' := by
  obtain ⟨hh1, ht1, hf⟩ := h
  exact ⟨hh.trans hh1, ht.trans ht1, hf⟩

/-- What follows fails without a packet. -/
theorem Steps.stumbles (h : Steps c1 c') (hh : Hops c c1) (ht : Turns c c1) : Stumbles c c' :=
  .mk hh ht (.quiet h.trail.extends.log.later)

theorem processPackets_hops (c : Conn) (h : Ready c) :
    (processPackets c).Sat (fun _ c' => Hops c c') (fun _ c' => Stumbles c c') := by
  have hround : ∀ c1, (Hops c c1 ∧ Turns c c1) ∧ Ready c1 →
      (tryOnePacket c1).Sat (fun _ c2 => (Hops c c2 ∧ Turns c c2) ∧ Ready c2)
        (fun _ c2 => Stumbles c c2) := by
    rintro c1 ⟨⟨h1, ht⟩, hready⟩
    have hone := tryOnePacket_rule (Q := fun p c2 => Handled p c1 c2 ∧ Admits p c1 c2)
      (E := Falters c1) c1 hready.wellFormed hready.ident (fun _ h => h.falters)
      fun p c2 hr hwf hid => ((handlePayload_admits hr hwf hid).and
        (handlePayload_sat hr hwf hid)).mono (fun _ _ h => h.1)
          fun _ _ h => h.2.falters hready.ident
    refine hone.mono ?_ ?_
    · rintro again c2 (⟨-, rfl⟩ | ⟨-, p, hp, ha⟩)
      · exact ⟨⟨h1, ht⟩, hready⟩
      · exact ⟨⟨h1.trans (hp.hops hready.ident ha), ht.trans hp.turns⟩, hready.handled hp⟩
    · rintro e c2 (rfl | hf)
      · exact .mk h1 ht (.quiet (.refl _))
      · exact .mk h1 ht hf
  unfold processPackets
  rw [Proc.bind_of_ok (Traced.read_apply c)]
  refine (Proc.sat_loop hround _ c ⟨⟨.refl, .refl⟩, h⟩).bind fun _ c1 ⟨⟨h1, ht⟩, _⟩ => ?_
  refine (((maybeRekey_follows c1).mono (R := fun _ c2 => Hops c c2)
    (fun _ _ h => h1.trans (Steps.hops h)) fun _ _ h => Steps.stumbles h h1 ht)).bind
      fun _ c2 h2 => ?_
  exact (flushPendingAll_returns c2).mono (fun _ _ h => h2.trans (Steps.hops h)) fun _ _ h => h.elim

theorem processIn_hops (c : Conn) (hwf : WellFormed c) :
    (processIn c).Sat (fun _ c' => Hops c c') (fun _ c' => Stumbles c c') := by
  unfold processIn
  rw [Proc.bind_of_ok (Traced.read_apply c), Proc.ite_apply]
  split
  · rename_i hid
    have hid : c.now.identInDone = false := by simpa using hid
    have hboth := (tryIdent_hops c hid).and (tryIdent_sat c hid)
    refine (hboth.mono (fun _ _ h => h) fun _ _ h => .mk .refl .refl h.2.falters).bind
      fun _ c1 ⟨h1, hquiet⟩ => ?_
    have hwf1 := hquiet.wellFormed hwf
    have hturn : Turns c c1 := .single (.quiet hquiet)
    rw [Proc.bind_of_ok (Traced.read_apply c1), Proc.ite_apply]
    split
    · rename_i hid1
      refine ((maybeStartKex_follows c1 hwf1).mono (fun _ _ h => h)
        fun _ _ h => Steps.stumbles h h1 hturn).bind fun _ c2 h2 => ?_
      have hident : c2.now.identInDone = c1.now.identInDone :=
        congrArg Ident.done (Steps.trail h2).extends.ident
      have hready : Ready c2 := ⟨(Steps.trail h2).wellFormed hwf1, hident.trans hid1⟩
      have h12 := h1.trans (Steps.hops h2)
      have ht12 := hturn.trans (Steps.turns h2)
      exact (processPackets_hops c2 hready).mono (fun _ _ h => h12.trans h)
        fun _ _ h => h.after h12 ht12
    · exact h1
  · rename_i hid
    have hid : c.now.identInDone = true := by simpa using hid
    exact processPackets_hops c ⟨hwf, hid⟩

/-- `consume_out` hands over bytes, and may start a key exchange. -/
theorem consumeOut_outputs (n : Nat) (c : Conn) (hwf : WellFormed c) :
    Proc.Follows (Outputs ((c.now.peeked.getD []).take n)) (consumeOut n) c := by
  have hpull : Drains [] c ⟨c.now.pullCurrentOut, c.log⟩ := by
    have hheld := (pulls_pullCurrentOut c.now).held
    obtain ⟨_, _, _, _, hpull⟩ := c.now.pullCurrentOut_eq
    refine ⟨?_, ?_, ?_, ?_, hheld, rfl, .single (.own (Step.pull c))⟩
    all_goals
      show _ = _
      rw [hpull]
      rfl
  unfold Proc.Follows
  by_cases hn : n = 0
  · subst hn
    exact Outputs.mk ⟨rfl, rfl, rfl, rfl, rfl, rfl, .refl⟩ .refl
  cases hout : c.now.pullCurrentOut.currentOut with
  | none =>
    have hnone : (c.now.peeked.getD []).take n = [] := by
      rw [peeked, hout]
      exact List.take_nil
    rw [consumeOut_empty hn hout]
    apply Outputs.mk _ .refl
    rw [hnone]
    exact hpull
  | some b =>
    have hsome : (c.now.peeked.getD []).take n = b.take (min n b.length) := by
      have hpeek : c.now.peeked.getD [] = b := by
        rw [peeked, hout]
        cases b <;> rfl
      rw [hpeek, List.take_eq_take_iff, Nat.min_assoc, Nat.min_self]
    have hdrain : Drains ((c.now.peeked.getD []).take n) c
        ⟨c.now.pullCurrentOut.drained b (min n b.length), c.log⟩ := by
      have hheld := (held_drained (n := min n b.length) hout).trans hpull.held
      obtain ⟨_, _, _, _, _, hdrained⟩ := c.now.pullDrained_eq b (min n b.length)
      rw [hsome]
      refine ⟨?_, ?_, ?_, ?_, hheld, rfl, .single (.own (Step.drain hout hn))⟩
      all_goals
        show _ = _
        rw [hdrained]
        rfl
    rw [consumeOut_apply hn hout, Proc.ite_apply]
    split
    · refine (maybeStartKex_follows _ ((Step.drain hout hn).wellFormed hwf)).mono ?_ ?_
      · exact fun _ _ hs => .mk hdrain (Steps.hops hs)
      · exact fun _ _ hs => .mk hdrain (Steps.hops hs)
    · exact Outputs.mk hdrain .refl

/-- Any other call that brings no bytes. -/
theorem Call.run_hops (call : Call) (c : Conn) (hwf : WellFormed c) (hin : call ≠ .processIn)
    (hrecv : ∀ bytes, call ≠ .recv bytes) (hout : ∀ n, call ≠ .consumeOut n) :
    Proc.Follows Hops call.run c := by
  have hhops : ∀ c', Called call c c' → Hops c c' := by
    intro c' h
    apply Trail.hops h.trail
    rintro n (hk | hk)
    · exact hk
    · cases hk
      exact hout n rfl
  exact (call.run_called c hwf hin hrecv).mono (fun _ c' h => hhops c' h) fun _ c' h => hhops c' h

omit [CryptoLib] in
/-- Bytes are handed to the socket by `consume_out` only. -/
theorem Call.taken_eq_nil {call : Call} (hout : ∀ n, call ≠ .consumeOut n) (c : Connection) :
    call.taken c = [] := by
  cases call with
  | consumeOut n => exact absurd rfl (hout n)
  | _ => rfl

-- ============================================================================
-- Hops and the contacts between them
-- ============================================================================

/-- What one end does in a run: hops, and its contacts with the streams. -/
inductive Beat (c : Conn) : Conn → Prop where
  | hop {c' : Conn} (h : Hop c c') : Beat c c'
  | drain {c' : Conn} {chunk : Bytes} (h : Drains chunk c c') : Beat c c'
  | recv (bytes : Bytes) : Beat c (fed bytes c)

/-- Sequences of such moves. -/
abbrev Beats : Conn → Conn → Prop := ReflTransGen Beat

theorem Outputs.beats (h : Outputs chunk c c') : Beats c c' := by
  cases h with
  | mk hd hs => exact (ReflTransGen.mono (fun _ _ => Beat.hop) _ _ hs).head (.drain hd)

theorem Beat.calms (h : Beat c c') : ReflTransGen Calm c c' := by
  cases h with
  | hop h => exact .single h.calm
  | drain h => exact h.calms
  | recv bytes => exact .single (.recv c bytes)

theorem Beats.calms (h : Beats c c') : ReflTransGen Calm c c' := by
  induction h with
  | refl => exact .refl
  | tail _ hlast ih => exact ih.trans hlast.calms

theorem Beats.moves (h : Beats c c') : Moves c c' := calms_moves h.calms

end Ssproxy
