/-
  Ssproxy.Strict

  Strict key exchange.  A run in which strict key exchange is on when the first
  exchange completes should have handled three packets up to then: KEXINIT, one
  ECDH message and NEWKEYS.

  The filter of `try_one_packet` is armed by the peer's KEXINIT.  What is
  handled besides those three is listed in `Slips`; without it, a run is as it
  should be, whether or not calls of `process_in` failed in it.
-/

import Ssproxy.Auth

namespace Ssproxy

open Lib Wire Connection

variable [CryptoLib] {p : Bytes} {c c' c1 : Conn}

-- ============================================================================
-- What handling a packet does to the key exchange
-- ============================================================================

/-- How far the key exchange has got. -/
structure Progress where
  running : Bool
  theirs : Bool
  pending : Bool
  strict : Bool
  first : Bool

def Connection.progress (c : Connection) : Progress :=
  ⟨c.kex.isSome, (c.kex.bind (·.theirs)).isSome, c.pendingKeys.isSome, c.strictKex, c.firstKexDone⟩

omit [CryptoLib] in
theorem progress_of_control {c c' : Connection} (h : c'.control = c.control) :
    c'.progress = c.progress :=
  congrArg (·.conn.progress) h

/-- The messages of a key exchange. -/
def MsgType.ofKex : List MsgType := [.kexinit, .newkeys, .kexEcdhInit, .kexEcdhReply]

/-- The ECDH message that a connection of this role receives. -/
def Role.ecdh : Role → MsgType
  | .server => .kexEcdhInit
  | .client => .kexEcdhReply

/-- What handling `p` does to the key exchange, and what is observed. -/
inductive KexEffect (p : Bytes) (c c' : Conn) : Prop where
  | other (hm : ∀ m ∈ MsgType.ofKex, ¬IsMsg m p)
  | kexinit (hm : IsMsg .kexinit p) (hrun : c'.now.progress.running = true)
      (ht : c'.now.progress.theirs = true)
      (hpend : c'.now.progress.pending = c.now.progress.pending)
      (hfirst : c'.now.progress.first = c.now.progress.first)
      (hl : Grows (c.log ++ [.handled c.now p]) c'.log)
  | ecdh (hm : IsMsg c.now.role.ecdh p) (ht : c.now.progress.theirs = true)
      (hp : c'.now.progress = { c.now.progress with pending := true })
      (hl : Grows (c.log ++ [.handled c.now p]) c'.log)
  | newkeys {b : Connection} (hm : IsMsg .newkeys p) (hpend : c.now.progress.pending = true)
      (hb : b.strictKex = c.now.strictKex) (hfirst : c'.now.firstKexDone = true)
      (hl : Grows (c.log ++ [.handled c.now p] ++ [.kexCompleted b]) c'.log)

omit [CryptoLib] in
/-- A message outside the key exchange. -/
theorem KexEffect.of_other {m : MsgType} (hm : IsMsg m p) (hnot : m ∉ MsgType.ofKex) :
    KexEffect p c c' :=
  .other fun _ hm' h => hnot (hm.unique h ▸ hm')

theorem Receives.progress (h : Receives p c c1) : c1.now.progress = c.now.progress :=
  progress_of_control h.control

theorem Receives.role (h : Receives p c c1) : c1.now.role = c.now.role :=
  congrArg (·.role) h.settings

theorem Receives.noted (h : Receives p c c1) (hl : Grows c1.log c'.log) :
    Grows (c.log ++ [.handled c.now p]) c'.log := by
  rw [← h.log]
  exact hl

theorem Starts.progress (h : Starts c c') : c'.now.progress.running = true ∧
    c'.now.progress.pending = c.now.progress.pending ∧
    c'.now.progress.first = c.now.progress.first := by
  cases h with
  | mk hq =>
    have h := progress_of_control hq.control
    exact ⟨rfl, congrArg (·.pending) h, congrArg (·.first) h⟩

theorem Joins.progress (h : Joins c c') : c'.now.progress.pending = c.now.progress.pending ∧
    c'.now.progress.first = c.now.progress.first := by
  cases h with
  | running hk => exact ⟨rfl, rfl⟩
  | started hk hs => exact hs.progress.2

theorem Switches.progress {pk : PendingKeys} (h : Switches pk c c') :
    c'.now.progress = { c.now.progress with pending := true } := by
  cases h with
  | mk hpk hq =>
    have h := progress_of_control hq.control
    exact congrArg (fun s : Progress => { s with pending := true }) h

omit [CryptoLib] in
theorem InExchange.progress {c : Connection} {x : Exchange} (h : c.InExchange x) :
    c.progress.running = true ∧ c.progress.theirs = true := by
  simp only [Connection.progress, h.kex, Option.isSome_some, Option.bind_some, h.theirs, and_self]

theorem Handles.kexEffect (h : Handles p c c') : KexEffect p c c' := by
  cases h with
  | skip hr h =>
    cases h with
    | @passive m hm hmem =>
      refine .of_other hm fun hk => ?_
      revert hmem hk
      cases m <;> decide
    | @notServer m hrole hm hmem =>
      rcases hmem with rfl | rfl
      · exact .of_other hm (by decide)
      · exact .of_other hm (by decide)
    | notClient hrole hm => exact .of_other hm (by decide)
    | closeUnknown hm hch => exact .of_other (IsMsg.of_prefix hm) (by decide)
  | answer hr h hq =>
    cases h with
    | service hrole hm hn => exact .of_other (IsMsg.of_prefix hm) (by decide)
    | credentials hrole hc hm => exact .of_other hm (by decide)
    | «global» hm hw hrep => exact .of_other hm (by decide)
    | unknownType ha hm ht => exact .of_other (IsMsg.of_prefix hm) (by decide)
    | request hm hw hch hrid ht => exact .of_other (IsMsg.of_prefix hm) (by decide)
    | ping hm => exact .of_other hm (by decide)
    | unknown hm ht =>
      refine .other fun m _ h => ?_
      cases Option.some.inj (hm.symm.trans h)
      rw [MsgType.ofCode_code] at ht
      cases ht
  | kexinitServer hr hm hrole hp hj hk hn =>
    obtain ⟨hpend, hfirst⟩ := hj.progress
    have hp := hr.progress
    exact .kexinit hm rfl rfl (hpend.trans (congrArg (·.pending) hp))
      (hfirst.trans (congrArg (·.first) hp)) (hr.noted hj.extends.log)
  | kexinitClient hr hm hrole hp hj hk hn hpub hq =>
    obtain ⟨hpend, hfirst⟩ := hj.progress
    have hp := hr.progress
    have hq' := progress_of_control hq.control
    refine .kexinit hm (congrArg (·.running) hq') (congrArg (·.theirs) hq') ?_ ?_
      (hr.noted (hj.extends.log.trans hq.extends.log))
    · exact (congrArg (·.pending) hq').trans (hpend.trans (congrArg (·.pending) hp))
    · exact (congrArg (·.first) hq').trans (hfirst.trans (congrArg (·.first) hp))
  | ecdhInit hr hrole hm hcfg hx hz hq hs =>
    have hq' := progress_of_control hq.control
    refine .ecdh ?_ ?_ ?_ (hr.noted (hq.extends.trans hs.extends).log)
    · rw [← hr.role, hrole]
      exact IsMsg.of_prefix hm
    · rw [← hr.progress]
      exact (InExchange.progress hx).2
    · rw [hs.progress, hq', ← hr.progress]
      rfl
  | ecdhReply hr hrole hm hpub hsec hx hks hsig hz hs =>
    refine .ecdh ?_ ?_ ?_ (hr.noted hs.extends.log)
    · rw [← hr.role, hrole]
      exact IsMsg.of_prefix hm
    · rw [← hr.progress]
      exact (InExchange.progress hx).2
    · rw [hs.progress, ← hr.progress]
      simp [Connection.progress, finished, hx.kex]
  | newkeysFirst hr hm hpk hf hg =>
    refine .newkeys hm ?_ ?_ (hg.rises.firstKexDone rfl) (hr.log ▸ hg.extends.log)
    · rw [← hr.progress]
      exact Option.isSome_iff_exists.mpr ⟨_, hpk⟩
    · exact congrArg (·.strict) hr.progress
  | @newkeysAgain c1 pk hr hm hpk hf =>
    refine .newkeys (b := c1.now.installRecv pk) hm ?_ ?_ hf ?_
    · rw [← hr.progress]
      exact Option.isSome_iff_exists.mpr ⟨_, hpk⟩
    · exact congrArg (·.strict) hr.progress
    · rw [← hr.log]
      exact .refl _
  | userauthSuccess hr hm => exact .of_other hm (by decide)
  | authAccept hr hrole hcfg hm hok hq => exact .of_other (IsMsg.of_prefix hm) (by decide)
  | authReject hr hrole hcfg hm hbad hd => exact .of_other (IsMsg.of_prefix hm) (by decide)
  | authOther hr hrole hcfg hm hd => exact .of_other hm (by decide)
  | disconnect hr hm => exact .of_other hm (by decide)
  | openSession hr hm hauth ha => exact .of_other (IsMsg.of_prefix hm) (by decide)
  | openDirect hr hm hauth ha => exact .of_other (IsMsg.of_prefix hm) (by decide)
  | openConfirm hr hm hch => exact .of_other (IsMsg.of_prefix hm) (by decide)
  | openFail hr hm => exact .of_other (IsMsg.of_prefix hm) (by decide)
  | windowAdjust hr hm hch => exact .of_other (IsMsg.of_prefix hm) (by decide)
  | deliver hr hm hch hw =>
    rcases hm with hm | ⟨code, hm⟩
    · exact .of_other (IsMsg.of_prefix hm) (by decide)
    · exact .of_other (IsMsg.of_prefix hm) (by decide)
  | peerEof hr hm hch => exact .of_other (IsMsg.of_prefix hm) (by decide)
  | peerEofUnknown hr hm hch => exact .of_other (IsMsg.of_prefix hm) (by decide)
  | peerClose hr hm hch => exact .of_other (IsMsg.of_prefix hm) (by decide)

-- ============================================================================
-- What the handlers of an exchange take
-- ============================================================================

omit [CryptoLib] in
theorem IsMsg.exists_cons {m : MsgType} (hm : IsMsg m p) : ∃ r, p = m.code :: r := by
  obtain ⟨t, r, rfl⟩ := List.exists_cons_of_ne_nil (l := p) (by rintro rfl; cases hm)
  cases hm
  exact ⟨r, rfl⟩

namespace Connection

/-- The handler of `p`, a message of the exchange, has all it needs. -/
inductive Takes (c : Connection) (p : Bytes) : Prop where
  | kexinit {theirs : KexInit} {q : Parser} {c2s s2c : String} (hm : IsMsg .kexinit p)
      (hp : KexInit.parseBody p (.new p) = .ok theirs q) (hn : Negotiates theirs c2s s2c)
  | ecdhInit {qC : Block 32} {k : KexState} {theirs : KexInit} (hrole : c.role = .server)
      (hm : Msg.ecdhInit qC <+: p) (hk : c.kex = some k) (ht : k.theirs = some theirs)
      (hz : isZero (CryptoLib.x25519 (c.rng.next 32) qC).val = false)
  | ecdhReply {ks sig : Bytes} {qS secret : Block 32} {k : KexState} {theirs : KexInit}
      (hrole : c.role = .client) (hm : Msg.ecdhReply ks qS sig <+: p) (hks : ks.length < 2 ^ 32)
      (hsig : sig.length < 2 ^ 32) (hk : c.kex = some k) (ht : k.theirs = some theirs)
      (hsec : k.secret = some secret) (hz : isZero (CryptoLib.x25519 secret qS).val = false)
  | newkeys (hm : IsMsg .newkeys p) (hpk : c.pendingKeys.isSome = true)

theorem acceptKexinit_takes {theirs : KexInit} {c2s s2c : String} {k : KexState}
    (hn : Negotiates theirs c2s s2c) (hk : c.now.kex = some k) (hwf : WellFormed c) :
    (acceptKexinit theirs c).Sat (fun _ _ => True) (fun _ _ => False) := by
  obtain ⟨alg, halg⟩ := Option.isSome_iff_exists.mp hn.kex
  obtain ⟨comp, hcomp⟩ := Option.isSome_iff_exists.mp hn.comp
  unfold acceptKexinit
  rw [Proc.bind_of_ok (Traced.read_apply c), Proc.bind_of_ok (unwrap_of_eq hk c),
    Proc.bind_of_ok (okOr_of_eq hn.c2s _ c), Proc.bind_of_ok (okOr_of_eq hn.s2c _ c),
    Proc.bind_of_ok (okOr_of_eq hn.hostKey _ c), Proc.bind_apply, Proc.failIf_apply,
    if_neg (by simp), Outcome.bind_ok, Proc.bind_of_ok (okOr_of_eq halg _ c),
    Proc.bind_of_ok (okOr_of_eq hcomp _ c), Proc.bind_of_ok (Traced.update_apply _ c),
    Proc.bind_of_ok (Traced.update_apply _ _), Proc.ite_apply]
  split
  · rename_i hclient
    obtain ⟨pub, hpub⟩ := hwf.kex.ephemeral hclient k hk
    exact (sendEcdhInit_sat (c := ⟨c.now.recorded k theirs c2s s2c, c.log⟩) hpub).mono
      (fun _ _ _ => trivial) fun _ _ h => h
  · trivial

theorem onKexinit_takes {theirs : KexInit} {q : Parser} {c2s s2c : String}
    (hp : KexInit.parseBody p (.new p) = .ok theirs q) (hn : Negotiates theirs c2s s2c)
    (hwf : WellFormed c) : (onKexinit p c).Sat (fun _ _ => True) (fun _ _ => False) := by
  have hparse : (KexInit.parse p : ConnM KexInit) c = .ok theirs c := by
    unfold KexInit.parse Proc.call
    rw [Proc.bind_apply, hp]
    rfl
  unfold onKexinit
  rw [Proc.bind_of_ok hparse]
  refine ((joinKex_sat c).mono (fun _ _ h => h) fun _ _ h => h).bind ?_
  rintro _ c2 ⟨hj, k, hk⟩
  exact acceptKexinit_takes hn hk (hj.wellFormed hwf)

theorem onEcdhInit_takes {qC : Block 32} {k : KexState} {theirs : KexInit}
    (hrole : c.now.role = .server) (hm : Msg.ecdhInit qC <+: p) (hk : c.now.kex = some k)
    (ht : k.theirs = some theirs)
    (hz : isZero (CryptoLib.x25519 (c.now.rng.next 32) qC).val = false) (hwf : WellFormed c)
    (hid : c.now.identInDone = true) :
    (onEcdhInit p c).Sat (fun _ _ => True) (fun _ _ => False) := by
  obtain ⟨r, rfl⟩ := hm
  obtain ⟨x, hx, -⟩ := inExchange_of_theirs hwf hid hk ht
  obtain ⟨cfg, hcfg⟩ := Option.isSome_iff_exists.mp (hwf.kex.server hrole)
  have hcfg : c.now.server = some cfg := hcfg
  have hrecv : c.now.recvNewkeys = false :=
    hwf.kex.unfinished (Option.isSome_iff_exists.mpr ⟨k, hk⟩)
  have hlen : qC.val.length < 2 ^ 32 := by
    rw [qC.property]
    decide
  obtain ⟨p0, e0, h0⟩ := Parser.call_code .kexEcdhInit (putBytes qC.val ++ r) c
  obtain ⟨p1, e1, -⟩ := Parser.call_reads (Parser.reads_bytes hlen) h0 c
  have hp : Msg.ecdhInit qC ++ r = MsgType.kexEcdhInit.code :: (putBytes qC.val ++ r) := rfl
  rw [hp]
  unfold onEcdhInit
  rw [Proc.bind_of_ok (Traced.read_apply c), Proc.bind_apply, Proc.failIf_apply,
    if_neg (by simp [hrole]), Outcome.bind_ok, Proc.bind_of_ok e0]
  dsimp only
  rw [Proc.bind_apply, Proc.failIf_apply, if_neg (by simp), Outcome.bind_ok,
    Proc.bind_of_ok e1]
  dsimp only
  rw [Proc.bind_apply, Proc.failIf_apply, if_neg (by simp), Outcome.bind_ok,
    Block.ofBytes?_of_length qC.property, Proc.bind_of_ok (Proc.unwrap_some _ _),
    Proc.bind_of_ok (fillBytes_apply 32 _), Proc.bind_apply, Proc.failIf_apply,
    if_neg (by simpa using hz), Outcome.bind_ok, Proc.bind_apply, Proc.failIf_apply,
    if_neg (by simp [hk, ht]), Outcome.bind_ok, Proc.bind_of_ok (unwrap_of_eq hcfg _),
    Proc.bind_of_ok (Traced.update_apply _ _)]
  generalize hc2 : (⟨({ c.now with
    rng := c.now.rng.skip 32, peerKs := some cfg.hostKey.publicBlob } : Connection), c.log⟩ :
      Conn) = c2
  have hx2 : c2.now.InExchange x := by
    rw [← hc2]
    exact ⟨hx.kex, hx.theirs, hx.identPeer, hx.c2s, hx.s2c⟩
  have hks2 : c2.now.peerKs = some cfg.hostKey.publicBlob := by
    rw [← hc2]
  have hrecv2 : c2.now.recvNewkeys = false := by
    rw [← hc2]
    exact hrecv
  have hlast : ∀ qC qS shared, (c2.now.finished x cfg.hostKey.publicBlob qC qS shared).lastH
      = some (c2.now.exchangeHash x cfg.hostKey.publicBlob qC qS shared) := fun _ _ _ => rfl
  rw [Proc.bind_of_ok (finishKex_apply _ _ _ hx2 hks2), Proc.bind_of_ok (Traced.read_apply _),
    Proc.bind_of_ok (unwrap_of_eq (hlast _ _ _) _)]
  refine ((queueMsg_short none _ _ (by simp [Msg.ecdhReply])
    (length_ecdhReply cfg.hostKey _ _)).mono (fun _ _ h => h) fun _ _ h => h.elim).bind ?_
  intro _ c3 hq
  have hpk3 : c3.now.pendingKeys = _ := congrArg (·.conn.pendingKeys) hq.control
  have hrecv3 : c3.now.recvNewkeys = false :=
    (congrArg (·.conn.recvNewkeys) hq.control).trans hrecv2
  exact (sendNewkeys_sat hpk3 hrecv3).mono (fun _ _ _ => trivial) fun _ _ h => h

theorem onEcdhReply_takes {ks sig : Bytes} {qS secret : Block 32} {k : KexState}
    {theirs : KexInit} (hrole : c.now.role = .client) (hm : Msg.ecdhReply ks qS sig <+: p)
    (hks : ks.length < 2 ^ 32) (hsig : sig.length < 2 ^ 32) (hk : c.now.kex = some k)
    (ht : k.theirs = some theirs) (hsec : k.secret = some secret)
    (hz : isZero (CryptoLib.x25519 secret qS).val = false) (hwf : WellFormed c)
    (hid : c.now.identInDone = true) :
    (onEcdhReply p c).Sat (fun _ _ => True) (fun _ _ => False) := by
  obtain ⟨r, rfl⟩ := hm
  obtain ⟨x, hx, rfl⟩ := inExchange_of_theirs hwf hid hk ht
  obtain ⟨pub, hpub⟩ := hwf.kex.ephemeral hrole _ hk
  have hrecv : c.now.recvNewkeys = false :=
    hwf.kex.unfinished (Option.isSome_iff_exists.mpr ⟨_, hk⟩)
  have hlen : qS.val.length < 2 ^ 32 := by
    rw [qS.property]
    decide
  obtain ⟨p0, e0, h0⟩ := Parser.call_code .kexEcdhReply
    (putBytes ks ++ (putBytes qS.val ++ (putBytes sig ++ r))) c
  obtain ⟨p1, e1, h1⟩ := Parser.call_reads (Parser.reads_bytes hks) h0 c
  obtain ⟨p2, e2, h2⟩ := Parser.call_reads (Parser.reads_bytes hlen) h1 c
  obtain ⟨p3, e3, -⟩ := Parser.call_reads (Parser.reads_bytes hsig) h2 c
  have hp : Msg.ecdhReply ks qS sig ++ r = MsgType.kexEcdhReply.code ::
      (putBytes ks ++ (putBytes qS.val ++ (putBytes sig ++ r))) := by
    simp [Msg.ecdhReply]
  rw [hp]
  unfold onEcdhReply
  rw [Proc.bind_of_ok (Traced.read_apply c), Proc.bind_apply, Proc.failIf_apply,
    if_neg (by simp [hrole]), Outcome.bind_ok, Proc.bind_of_ok e0]
  dsimp only
  rw [Proc.bind_apply, Proc.failIf_apply, if_neg (by simp), Outcome.bind_ok,
    Proc.bind_of_ok e1]
  dsimp only
  rw [Proc.bind_of_ok e2]
  dsimp only
  rw [Proc.bind_of_ok e3]
  rw [Proc.bind_apply, Proc.failIf_apply, if_neg (by simp), Outcome.bind_ok,
    Block.ofBytes?_of_length qS.property, Proc.bind_of_ok (Proc.unwrap_some _ _), hk,
    show (some x.kex).bind (·.localPub) = some pub from hpub,
    Proc.bind_of_ok (Proc.okOr_some _ _ _),
    show (some x.kex).bind (·.secret) = some secret from hsec,
    Proc.bind_of_ok (Proc.okOr_some _ _ _), Proc.bind_of_ok (Traced.update_apply _ _),
    Proc.bind_apply, Proc.failIf_apply, if_neg (by simpa using hz), Outcome.bind_ok,
    Proc.bind_of_ok (Traced.update_apply _ _)]
  generalize hc2 : (⟨({ c.now with
    kex := c.now.kex.map fun k => { k with secret := none }
    peerKs := some ks } : Connection), c.log⟩ : Conn) = c2
  have hx2 : c2.now.InExchange { x with kex := { x.kex with secret := none } } := by
    rw [← hc2]
    exact ⟨by rw [hk]; rfl, hx.theirs, hx.identPeer, hx.c2s, hx.s2c⟩
  have hks2 : c2.now.peerKs = some ks := by
    rw [← hc2]
  rw [Proc.bind_of_ok (finishKex_apply _ _ _ hx2 hks2)]
  subst hc2
  exact Outcome.Sat.mono (sendNewkeys_sat (c := ⟨Connection.finished _ _ _ _ _ _, _⟩) rfl hrecv)
    (fun _ _ _ => trivial) fun _ _ h => h

end Connection

/-- In the first exchange a message that its handler can take is not refused. -/
theorem Receives.not_failsOn (hr : Receives p c c1) (hwf : WellFormed c)
    (hid : c.now.identInDone = true) (hf : c.now.firstKexDone = false) (ht : c.now.Takes p) :
    ¬FailsOn p c1 := by
  have hwf1 := hr.wellFormed hwf
  have hid1 : c1.now.identInDone = true := (congrArg Ident.done hr.ident).trans hid
  have hkex : c1.now.kex = c.now.kex := congrArg (·.conn.kex) hr.control
  have hsat : (handlePayload p c1).Sat (fun _ _ => True) (fun _ _ => False) := by
    cases ht with
    | kexinit hm hp hn =>
      obtain ⟨r, rfl⟩ := hm.exists_cons
      exact onKexinit_takes hp hn hwf1
    | ecdhInit hrole hm hk ht hz =>
      obtain ⟨r, rfl⟩ := (IsMsg.of_prefix hm).exists_cons
      exact onEcdhInit_takes ((congrArg (·.conn.role) hr.control).trans hrole) hm
        (hkex.trans hk) ht (hr.rng ▸ hz) hwf1 hid1
    | ecdhReply hrole hm hks hsig hk ht hsec hz =>
      obtain ⟨r, rfl⟩ := (IsMsg.of_prefix hm).exists_cons
      exact onEcdhReply_takes ((congrArg (·.conn.role) hr.control).trans hrole) hm hks hsig
        (hkex.trans hk) ht hsec hz hwf1 hid1
    | newkeys hm hpk =>
      obtain ⟨r, rfl⟩ := hm.exists_cons
      obtain ⟨pk, hpk⟩ := Option.isSome_iff_exists.mp hpk
      have hpk1 : c1.now.pendingKeys = some pk :=
        (congrArg (·.conn.pendingKeys) hr.control).trans hpk
      have hf1 : c1.now.firstKexDone = false :=
        (congrArg (·.conn.firstKexDone) hr.control).trans hf
      exact (onNewkeys_first hpk1 (hwf1.kex.pending pk hpk1).2.1 hf1).mono
        (fun _ _ _ => trivial) fun _ _ h => h
  rintro ⟨e, c', he⟩
  exact hsat.of_err he

-- ============================================================================
-- The completed exchanges
-- ============================================================================

/-- The completed key exchanges, each with the state just before it completed
    and the packets handled up to then; `acc` are those handled before. -/
def completions (acc : List (Connection × Bytes)) :
    List Obs → List (Connection × List (Connection × Bytes))
  | [] => []
  | .handled before p :: l => completions (acc ++ [(before, p)]) l
  | .kexCompleted b :: l => (b, acc) :: completions acc l
  | _ :: l => completions acc l

omit [CryptoLib] in
theorem completions_append (acc : List (Connection × Bytes)) (l l' : List Obs) :
    completions acc (l ++ l') = completions acc l ++ completions (acc ++ handledPackets l) l' := by
  induction l generalizing acc with
  | nil => simp [completions, handledPackets]
  | cons o l ih =>
    cases o with
    | handled before p =>
      have h := ih (acc ++ [(before, p)])
      simpa [completions, handledPackets] using h
    | kexCompleted b =>
      have h := ih acc
      simpa [completions, handledPackets] using h
    | _ => exact ih acc

omit [CryptoLib] in
theorem completions_routine {acc : List (Connection × Bytes)} {l : List Obs}
    (h : ∀ o ∈ l, o.Routine) : completions acc l = [] := by
  induction l with
  | nil => rfl
  | cons o l ih =>
    have ih := ih fun o ho => h o (List.mem_cons_of_mem _ ho)
    have ho := h o (List.mem_cons_self ..)
    cases o with
    | handled before p => exact ho.elim
    | kexCompleted b => exact ho.elim
    | _ => exact ih

omit [CryptoLib] in
theorem Grows.completions {l l' : List Obs} (h : Grows l l') :
    completions [] l' = completions [] l := by
  obtain ⟨new, rfl, hnew⟩ := h
  rw [completions_append, completions_routine hnew, List.append_nil]

omit [CryptoLib] in
theorem Grows.handledPackets {l l' : List Obs} (h : Grows l l') :
    handledPackets l' = handledPackets l := by
  obtain ⟨new, rfl, hnew⟩ := h
  have hnil : Ssproxy.handledPackets new = [] := by
    refine List.filterMap_eq_nil_iff.mpr fun o ho => ?_
    cases o with
    | handled before p => exact (hnew _ ho).elim
    | _ => rfl
  rw [Ssproxy.handledPackets, List.filterMap_append]
  exact (congrArg _ hnil).trans (List.append_nil _)

/-- The three packets of a first exchange. -/
def Handshake (role : Role) (ps : List Bytes) : Prop :=
  ∃ p1 p2 p3, ps = [p1, p2, p3] ∧ IsMsg .kexinit p1 ∧ IsMsg role.ecdh p2 ∧ IsMsg .newkeys p3

/-- If strict key exchange was on when the first exchange completed, the
    packets up to then were the three of the handshake. -/
def StrictRun (role : Role) (l : List Obs) : Prop :=
  ∀ x ∈ completions [] l, x.1.firstKexDone = false → x.1.strictKex = true →
    Handshake role (x.2.map (·.2))

omit [CryptoLib] in
theorem Refuses.firstKexDone {cfg : ServerConfig} {s s' : Standing} (h : Refuses cfg s s') :
    s'.firstKexDone = s.firstKexDone := by
  cases h with
  | soft hlt => rfl
  | hard hge => rfl

omit [CryptoLib] in
/-- A packet is added to those handled, and may complete an exchange. -/
theorem AuthEffect.tally (h : AuthEffect p c c') :
    handledPackets c'.log = handledPackets c.log ++ [(c.now, p)] ∧
    ((c'.now.firstKexDone = c.now.firstKexDone ∧ completions [] c'.log = completions [] c.log) ∨
      ∃ b : Connection, b.firstKexDone = c.now.firstKexDone ∧ c'.now.firstKexDone = true ∧
        completions [] c'.log
          = completions [] c.log ++ [(b, handledPackets c.log ++ [(c.now, p)])]) := by
  have hps : ∀ l' : List Obs, handledPackets l' = [] →
      Grows (c.log ++ [.handled c.now p] ++ l') c'.log →
      handledPackets c'.log = handledPackets c.log ++ [(c.now, p)] := by
    intro l' hnil hl
    rw [hl.handledPackets]
    simpa [handledPackets] using hnil
  have hcs : ∀ l' : List Obs, Grows (c.log ++ [.handled c.now p] ++ l') c'.log →
      completions [] c'.log = completions [] c.log
        ++ completions (handledPackets c.log ++ [(c.now, p)]) l' := by
    intro l' hl
    rw [hl.completions, completions_append, completions_append]
    simp [completions, handledPackets]
  have hsame : ∀ l' : List Obs, handledPackets l' = [] → (∀ acc, completions acc l' = []) →
      Grows (c.log ++ [.handled c.now p] ++ l') c'.log →
      handledPackets c'.log = handledPackets c.log ++ [(c.now, p)] ∧
        completions [] c'.log = completions [] c.log := by
    intro l' hnil hnone hl
    refine ⟨hps l' hnil hl, ?_⟩
    rw [hcs l' hl, hnone, List.append_nil]
  have hplain : Grows (c.log ++ [.handled c.now p]) c'.log →
      handledPackets c'.log = handledPackets c.log ++ [(c.now, p)] ∧
        completions [] c'.log = completions [] c.log := by
    intro hl
    refine hsame [] rfl (fun _ => rfl) ?_
    rw [List.append_nil]
    exact hl
  cases h with
  | none hs hl =>
    obtain ⟨h1, h2⟩ := hplain hl
    exact ⟨h1, .inl ⟨congrArg (·.firstKexDone) hs, h2⟩⟩
  | @kexDone b hb hs hl =>
    exact ⟨hps _ rfl hl, .inr ⟨b, congrArg (·.firstKexDone) hb, congrArg (·.firstKexDone) hs,
      hcs _ hl⟩⟩
  | closed hs hl =>
    obtain ⟨h1, h2⟩ := hplain hl
    exact ⟨h1, .inl ⟨congrArg (·.firstKexDone) hs, h2⟩⟩
  | success hm hb hs hl =>
    obtain ⟨h1, h2⟩ := hsame _ rfl (fun _ => rfl) hl
    exact ⟨h1, .inl ⟨congrArg (·.firstKexDone) hs, h2⟩⟩
  | accept hcfg hm hok hb hs hl =>
    rw [List.append_assoc] at hl
    obtain ⟨h1, h2⟩ := hsame _ rfl (fun _ => rfl) hl
    exact ⟨h1, .inl ⟨congrArg (·.firstKexDone) hs, h2⟩⟩
  | reject hcfg hm hs hl =>
    obtain ⟨h1, h2⟩ := hsame _ rfl (fun _ => rfl) hl
    exact ⟨h1, .inl ⟨hs.firstKexDone, h2⟩⟩
  | refuse hcfg hs hl =>
    obtain ⟨h1, h2⟩ := hplain hl
    exact ⟨h1, .inl ⟨hs.firstKexDone, h2⟩⟩

-- ============================================================================
-- What slips past the filter
-- ============================================================================

/-- The handling of `p` in state `before` is not part of a strict first
    exchange.  Before the filter is armed that is every packet but KEXINIT;
    afterwards EXT_INFO and the numbers without a meaning, a second KEXINIT or
    ECDH message, and a message of the exchange that its handler refuses. -/
inductive Slips (before : Connection) (p : Bytes) : Prop where
  | early (hs : before.strictKex = false) (hm : ¬IsMsg .kexinit p)
  | extInfo (hm : IsMsg .extInfo p)
  | unassigned {t : UInt8} (ht : p.head? = some t) (hlo : 32 ≤ t) (hhi : t ≤ 49)
  | second (hm : IsMsg .kexinit p) (ht : (before.kex.bind (·.theirs)).isSome = true)
  | again (hm : IsMsg .kexEcdhInit p ∨ IsMsg .kexEcdhReply p)
      (hp : before.pendingKeys.isSome = true)
  | refused {m : MsgType} (hmem : m ∈ MsgType.ofKex) (hm : IsMsg m p) (hno : ¬before.Takes p)

/-- A message that is taken when it is its turn does not slip in. -/
theorem Connection.Takes.not_slips {before : Connection} {m : MsgType} (h : before.Takes p)
    (hm : IsMsg m p) (hmem : m ∈ MsgType.ofKex)
    (hstrict : m ≠ .kexinit → before.strictKex = true)
    (htheirs : m = .kexinit → (before.kex.bind (·.theirs)).isSome = false)
    (hpend : m = .kexEcdhInit ∨ m = .kexEcdhReply → before.pendingKeys.isSome = false) :
    ¬Slips before p := by
  intro hs
  cases hs with
  | early hs hno =>
    have hne : m ≠ .kexinit := fun hk => hno (hk ▸ hm)
    exact absurd ((hstrict hne).symm.trans hs) (by decide)
  | extInfo he =>
    cases hm.unique he
    exact absurd hmem (by decide)
  | unassigned ht hlo hhi =>
    cases Option.some.inj (hm.symm.trans ht)
    revert hmem hlo hhi
    cases m <;> decide
  | second hk ht => exact absurd ((htheirs (hm.unique hk)).symm.trans ht) (by decide)
  | again he hp =>
    have hecdh := he.imp (fun he => hm.unique he) fun he => hm.unique he
    exact absurd ((hpend hecdh).symm.trans hp) (by decide)
  | refused _ _ hno => exact hno h

/-- No packet slipped in before the first exchange of a strict peer completed. -/
def Undisturbed (l : List Obs) : Prop :=
  ∀ x ∈ completions [] l, x.1.firstKexDone = false → x.1.strictKex = true →
    ∀ y ∈ x.2, ¬Slips y.1 y.2

/-- The message that comes next in the first exchange. -/
inductive Awaited (before : Connection) (p : Bytes) : Prop where
  | kexinit (hm : IsMsg .kexinit p) (ht : before.progress.theirs = false)
  | ecdh (hm : IsMsg .kexEcdhInit p ∨ IsMsg .kexEcdhReply p)
      (hp : before.progress.pending = false)
  | newkeys (hm : IsMsg .newkeys p)

omit [CryptoLib] in
theorem Awaited.ofKex {before : Connection} (h : Awaited before p) :
    ∃ m ∈ MsgType.ofKex, IsMsg m p := by
  cases h with
  | kexinit hm ht => exact ⟨_, by decide, hm⟩
  | ecdh hm hp =>
    rcases hm with hm | hm
    · exact ⟨_, by decide, hm⟩
    · exact ⟨_, by decide, hm⟩
  | newkeys hm => exact ⟨_, by decide, hm⟩

/-- In the first exchange a packet slips past the filter, or it comes next. -/
theorem Receives.awaited (hr : Receives p c c1) (hf : c.now.firstKexDone = false)
    (hno : ¬Slips c.now p) : Awaited c.now p := by
  obtain ⟨cipher, rest, total, -, hpass, -⟩ := hr.opens
  have hkexinit : IsMsg .kexinit p → Awaited c.now p :=
    fun hm => .kexinit hm (eq_false_of_ne_true fun ht => hno (.second hm ht))
  have hecdh : IsMsg .kexEcdhInit p ∨ IsMsg .kexEcdhReply p → Awaited c.now p :=
    fun hm => .ecdh hm (eq_false_of_ne_true fun hp => hno (.again hm hp))
  cases harmed : c.now.strictKex with
  | false => exact hkexinit (Classical.not_not.mp fun hm => hno (.early harmed hm))
  | true =>
    obtain ⟨t, r, rfl⟩ := List.exists_cons_of_ne_nil hr.nonempty
    simp only [passes, harmed, hf, isKexMsg, List.headD_cons, Bool.not_false, Bool.and_self,
      Bool.not_true, Bool.false_or, Bool.and_eq_true, Bool.or_eq_true, beq_iff_eq] at hpass
    rcases hpass.2 with ((h | h) | ⟨hlo, hhi⟩) | h
    · exact hkexinit (congrArg some h)
    · exact .newkeys (congrArg some h)
    · have hlo := of_decide_eq_true hlo
      have hhi := of_decide_eq_true hhi
      have hnum : ¬(32 ≤ t ∧ t ≤ 49) := fun h => hno (.unassigned rfl h.1 h.2)
      have h30 : t = 30 ∨ t = 31 := by
        simp only [UInt8.le_iff_toNat_le, ← UInt8.toNat_inj] at hnum hlo hhi ⊢
        simp only [UInt8.reduceToNat] at hnum hlo hhi ⊢
        omega
      rcases h30 with rfl | rfl
      · exact hecdh (.inl rfl)
      · exact hecdh (.inr rfl)
    · exact absurd (.extInfo (congrArg some h)) hno

-- ============================================================================
-- The phases of the first exchange
-- ============================================================================

/-- The packets handled so far, by how far the first exchange has got. -/
inductive Phase (role : Role) (c : Conn) : Prop where
  | waiting (hps : handledPackets c.log = []) (hc : completions [] c.log = [])
      (hrun : c.now.progress.running = true) (ht : c.now.progress.theirs = false)
      (hp : c.now.progress.pending = false) (hf : c.now.progress.first = false)
  | met {y1 : Connection × Bytes} (hps : handledPackets c.log = [y1]) (hm : IsMsg .kexinit y1.2)
      (hc : completions [] c.log = [])
      (hrun : c.now.progress.running = true) (ht : c.now.progress.theirs = true)
      (hp : c.now.progress.pending = false) (hf : c.now.progress.first = false)
  | keyed {y1 y2 : Connection × Bytes} (hps : handledPackets c.log = [y1, y2])
      (hm1 : IsMsg .kexinit y1.2) (hm2 : IsMsg role.ecdh y2.2) (hc : completions [] c.log = [])
      (hrun : c.now.progress.running = true) (ht : c.now.progress.theirs = true)
      (hp : c.now.progress.pending = true) (hf : c.now.progress.first = false)
  /-- A packet has slipped in: there is nothing to show any more. -/
  | astray {y : Connection × Bytes} (hy : y ∈ handledPackets c.log) (hs : Slips y.1 y.2)
      (hc : completions [] c.log = []) (hf : c.now.progress.first = false)
  | done (hf : c.now.progress.first = true) (hc : Undisturbed c.log → StrictRun role c.log)

namespace Phase

variable {role : Role}

/-- Moves that handle no packet and keep the exchange. -/
theorem keep (h : Phase role c) (hlog : Grows c.log c'.log)
    (hfirst : c'.now.progress.first = c.now.progress.first)
    (hp : c.now.progress.running = true → c'.now.progress = c.now.progress) : Phase role c' := by
  have hps := hlog.handledPackets
  have hcs := hlog.completions
  cases h with
  | waiting hps' hc hrun ht hp' hf =>
    have heq := hp hrun
    rw [← heq] at hrun ht hp' hf
    exact .waiting (hps.trans hps') (hcs.trans hc) hrun ht hp' hf
  | met hps' hm hc hrun ht hp' hf =>
    have heq := hp hrun
    rw [← heq] at hrun ht hp' hf
    exact .met (hps.trans hps') hm (hcs.trans hc) hrun ht hp' hf
  | keyed hps' hm1 hm2 hc hrun ht hp' hf =>
    have heq := hp hrun
    rw [← heq] at hrun ht hp' hf
    exact .keyed (hps.trans hps') hm1 hm2 (hcs.trans hc) hrun ht hp' hf
  | astray hy hs hc hf => exact .astray (hps ▸ hy) hs (hcs.trans hc) (hfirst.trans hf)
  | done hf hc =>
    refine .done (hfirst.trans hf) fun hu x hx => hc (fun y hy => hu y ?_) x ?_
    · rw [hcs]
      exact hy
    · rw [← hcs]
      exact hx

/-- A packet handled after the first exchange. -/
theorem settled (ha : AuthEffect p c c') (hf : c.now.firstKexDone = true)
    (hc : Undisturbed c.log → StrictRun role c.log) : Phase role c' := by
  obtain ⟨-, hcases⟩ := ha.tally
  have hfirst : c'.now.firstKexDone = true := by
    rcases hcases with ⟨hfirst, -⟩ | ⟨b, -, hfirst, -⟩
    · exact hfirst.trans hf
    · exact hfirst
  -- of the exchanges completed before, the first is among them
  have hold : ∀ x ∈ completions [] c.log, x ∈ completions [] c'.log := by
    intro x hx
    rcases hcases with ⟨-, hcs⟩ | ⟨b, -, -, hcs⟩
    · exact hcs ▸ hx
    · exact hcs ▸ List.mem_append_left _ hx
  have hnew : ∀ x ∈ completions [] c'.log, x.1.firstKexDone = false →
      x ∈ completions [] c.log := by
    intro x hx hxf
    rcases hcases with ⟨-, hcs⟩ | ⟨b, hb, -, hcs⟩
    · exact hcs ▸ hx
    · rw [hcs, List.mem_append] at hx
      rcases hx with hx | hx
      · exact hx
      · cases List.mem_singleton.mp hx
        exact absurd ((hb.trans hf).symm.trans hxf) (by decide)
  exact .done hfirst fun hu x hx hxf =>
    hc (fun y hy => hu y (hold y hy)) x (hnew x hx hxf) hxf

/-- A packet handled in a first exchange in which one has slipped in. -/
theorem strays (ha : AuthEffect p c c') (hc : completions [] c.log = [])
    (hf : c.now.firstKexDone = false) {y : Connection × Bytes}
    (hy : y ∈ handledPackets c.log ++ [(c.now, p)]) (hs : Slips y.1 y.2) : Phase role c' := by
  obtain ⟨hps, ⟨hfirst, hcs⟩ | ⟨b, hb, hfirst, hcs⟩⟩ := ha.tally
  · exact .astray (hps ▸ hy) hs (hcs.trans hc) (hfirst.trans hf)
  · refine .done hfirst fun hu x hx hxf hxs => ?_
    have hmem := hx
    rw [hcs, hc, List.nil_append, List.mem_singleton] at hmem
    refine absurd hs (hu x hx hxf hxs y ?_)
    rw [hmem]
    exact hy

end Phase

theorem Step.progress {k : Cause} (h : Step k c c') (hrun : c.now.progress.running = true) :
    c'.now.progress = c.now.progress := by
  rcases h.control with hc | ⟨hnone, -⟩ | ⟨reason, msg, hh⟩
  · exact progress_of_control hc
  · rw [show c.now.progress.running = c.now.kex.isSome from rfl, hnone] at hrun
    cases hrun
  · cases hh with
    | again _ => rfl
    | first _ hs =>
      have h := progress_of_control hs.control
      exact h

theorem Step.phase {role : Role} {k : Cause} (h : Step k c c') (hph : Phase role c) :
    Phase role c' := by
  refine hph.keep h.extends.log ?_ h.progress
  rcases h.standing with hs | hs
  · exact congrArg (·.firstKexDone) hs
  · exact congrArg (·.firstKexDone) hs

/-- The role decides which ECDH message is the next one. -/
theorem Handles.phase {role : Role} (h : Handles p c c') (hrole : c.now.role = role)
    (hph : Phase role c) : Phase role c' := by
  obtain ⟨c1, hr, -⟩ := h.handling
  have hps := h.authEffect.tally.1
  have hcs : Grows (c.log ++ [.handled c.now p]) c'.log →
      completions [] c'.log = completions [] c.log := by
    intro hl
    rw [hl.completions, completions_append]
    simp [completions]
  have hnext : completions [] c.log = [] → c.now.firstKexDone = false →
      (Awaited c.now p → Phase role c') → Phase role c' := by
    intro hc hf hph
    by_cases hs : Slips c.now p
    · exact .strays h.authEffect hc hf (List.mem_append_right _ (List.mem_singleton.mpr rfl)) hs
    · exact hph (hr.awaited hf hs)
  cases hph with
  | done hf hc => exact .settled h.authEffect hf hc
  | astray hy hs hc hf => exact .strays h.authEffect hc hf (List.mem_append_left _ hy) hs
  | waiting hps' hc hrun ht hp hf =>
    refine hnext hc hf fun hn => ?_
    rw [hps'] at hps
    cases h.kexEffect with
    | other hm =>
      obtain ⟨m, hmem, hm'⟩ := hn.ofKex
      exact absurd hm' (hm m hmem)
    | kexinit hm hrun' ht' hpend hfirst hl =>
      exact .met hps hm ((hcs hl).trans hc) hrun' ht' (hpend.trans hp) (hfirst.trans hf)
    | ecdh hm ht' => exact absurd (ht.symm.trans ht') (by decide)
    | newkeys hm hpend => exact absurd (hp.symm.trans hpend) (by decide)
  | met hps' hm1 hc hrun ht hp hf =>
    refine hnext hc hf fun hn => ?_
    rw [hps'] at hps
    cases h.kexEffect with
    | other hm =>
      obtain ⟨m, hmem, hm'⟩ := hn.ofKex
      exact absurd hm' (hm m hmem)
    | kexinit hm hrun' ht' hpend hfirst hl =>
      cases hn with
      | kexinit hm' ht'' => exact absurd (ht.symm.trans ht'') (by decide)
      | ecdh hm' hp' =>
        rcases hm' with hm' | hm'
        · exact absurd (hm.unique hm') (by decide)
        · exact absurd (hm.unique hm') (by decide)
      | newkeys hm' => exact absurd (hm.unique hm') (by decide)
    | ecdh hm ht' hp' hl =>
      rw [hrole] at hm
      refine .keyed hps hm1 hm ((hcs hl).trans hc) ?_ ?_ ?_ ?_
      all_goals rw [hp']
      · exact hrun
      · exact ht
      · exact hf
    | newkeys hm hpend => exact absurd (hp.symm.trans hpend) (by decide)
  | keyed hps' hm1 hm2 hc hrun ht hp hf =>
    refine hnext hc hf fun hn => ?_
    have hnew : IsMsg .newkeys p := by
      cases hn with
      | kexinit hm ht' => exact absurd (ht.symm.trans ht') (by decide)
      | ecdh hm hp' => exact absurd (hp.symm.trans hp') (by decide)
      | newkeys hm => exact hm
    cases h.kexEffect with
    | other hm => exact absurd hnew (hm _ (by decide))
    | kexinit hm => exact absurd (hm.unique hnew) (by decide)
    | ecdh hm =>
      have hne : c.now.role.ecdh ≠ .newkeys := by
        cases c.now.role <;> decide
      exact absurd (hm.unique hnew) hne
    | @newkeys b hm hpend hb hfirst hl =>
      refine .done hfirst fun _ x hx _ _ => ?_
      rw [hl.completions, completions_append, completions_append, hc, List.nil_append] at hx
      simp only [completions, handledPackets, List.filterMap_append, List.nil_append] at hx hps'
      rw [hps'] at hx
      cases List.mem_singleton.mp hx
      exact ⟨_, _, _, rfl, hm1, hm2, hnew⟩

/-- A packet whose handler fails has slipped in. -/
theorem Receives.phase {role : Role} (hr : Receives p c c1) (hfails : FailsOn p c1)
    (hid : c.now.identInDone = true) (hwf : WellFormed c) (ha : AuthEffect p c c')
    (hph : Phase role c) : Phase role c' := by
  have hslips : c.now.firstKexDone = false → Slips c.now p := by
    intro hf
    by_contra hs
    obtain ⟨m, hmem, hm⟩ := (hr.awaited hf hs).ofKex
    exact hs (.refused hmem hm fun ht => hr.not_failsOn hwf hid hf ht hfails)
  have hlast : completions [] c.log = [] → c.now.firstKexDone = false → Phase role c' :=
    fun hc hf => .strays ha hc hf (List.mem_append_right _ (List.mem_singleton.mpr rfl)) (hslips hf)
  cases hph with
  | waiting hps hc hrun ht hp hf => exact hlast hc hf
  | met hps hm hc hrun ht hp hf => exact hlast hc hf
  | keyed hps hm1 hm2 hc hrun ht hp hf => exact hlast hc hf
  | astray hy hs hc hf => exact .strays ha hc hf (List.mem_append_left _ hy) hs
  | done hf hc => exact .settled ha hf hc

theorem Move.phase {role : Role} (h : Move c c') (hwf : WellFormed c) (hrole : c.now.role = role)
    (hph : Phase role c) : Phase role c' := by
  cases h with
  | recv bytes => exact hph.keep (.refl _) rfl fun _ => rfl
  | own h => exact h.phase hph
  | quiet h =>
    cases h with
    | step h => exact h.phase hph
    | handle h => exact h.phase hrole hph
    | identWait _ _ => exact hph.keep (.refl _) rfl fun _ => rfl
    | identDone _ _ => exact hph.keep (.refl _) rfl fun _ => rfl
  | fault h =>
    cases h with
    | reject hr hf hid => exact hr.phase hf hid hwf (.none hr.standing hr.grows) hph
    | spoil hr hm hrole hk hsec hf hid =>
      exact hr.phase hf hid hwf (.none hr.standing hr.grows) hph
    | drop hkind => exact hph.keep (.refl _) rfl fun _ => rfl
    | identBad _ => exact hph.keep (.refl _) rfl fun _ => rfl

namespace Setup

/-- If no packet slips in before the first exchange of a strict peer completes,
    the packets handled up to then are the three of the handshake. -/
theorem run_strict {setup : Setup} {rng : Rng} {calls : List Call} {c : Conn}
    (hrun : setup.run rng calls = .ok () c) (ho : Undisturbed c.log) :
    StrictRun setup.role c.log := by
  have hinv : c.now.role = setup.role ∧ Phase setup.role c := by
    refine run_invariant (I := fun c => c.now.role = setup.role ∧ Phase setup.role c)
      (G := fun _ => True) ?_ ?_ hrun fun _ _ => trivial
    · intro c0 h0
      have hlog := h0.extends.log
      obtain ⟨hrun0, hp0, hf0⟩ := h0.progress
      have hblank : (setup.blank rng).role = setup.role ∧ (setup.blank rng).pendingKeys = none ∧
          (setup.blank rng).firstKexDone = false := by
        cases setup <;> exact ⟨rfl, rfl, rfl⟩
      refine ⟨(congrArg (·.role) h0.extends.settings).trans hblank.1, ?_⟩
      refine .waiting hlog.handledPackets hlog.completions hrun0 ?_ (hp0.trans ?_)
        (hf0.trans hblank.2.2)
      · cases h0
        rfl
      · simp [Connection.progress, hblank.2.1]
    · intro c c' hwf ⟨hrole, hph⟩ hm _
      exact ⟨(congrArg (·.role) (Moves.settings (.single hm))).trans hrole,
        hm.phase hwf hrole hph⟩
  have hnone : completions [] c.log = [] → StrictRun setup.role c.log := by
    intro hc x hx
    rw [hc] at hx
    cases hx
  cases hinv.2 with
  | waiting hps hc hrun ht hp hf => exact hnone hc
  | met hps hm hc hrun ht hp hf => exact hnone hc
  | keyed hps hm1 hm2 hc hrun ht hp hf => exact hnone hc
  | astray hy hs hc hf => exact hnone hc
  | done hf hc => exact hc ho

/-- A peer that asks for strict key exchange, with `early` before its KEXINIT. -/
def strictPeer (early : Bytes) : List Call :=
  [.recv (Toy.identLine ++ early
      ++ Toy.clearPacket (Toy.kexinit ["curve25519-sha256", kexStrictC] serverCiphers)
      ++ Toy.clearPacket (Msg.ecdhInit Toy.point)
      ++ Toy.clearPacket Msg.newkeys), .processIn]

/-- Its KEXINIT. -/
def strictKexinit : Bytes := Toy.kexinit ["curve25519-sha256", kexStrictC] serverCiphers

/-- Server `x` takes `p`, a message of that peer, as the next one. -/
def takesNext (x : Connection) (p : Bytes) : Bool :=
  (p == strictKexinit && !(x.kex.bind (·.theirs)).isSome) ||
  (p == Msg.ecdhInit Toy.point && x.strictKex && !x.pendingKeys.isSome &&
    decide (x.role = .server) && (x.kex.bind (·.theirs)).isSome &&
    !isZero (CryptoLib.x25519 (x.rng.next 32) Toy.point).val) ||
  (p == Msg.newkeys && x.strictKex && x.pendingKeys.isSome)

theorem strictKexinit_takes (x : Connection) : x.Takes strictKexinit := by
  have hparse : ((KexInit.parseBody strictKexinit (.new strictKexinit)).value?.any fun k =>
      decide (negotiate serverCiphers k.encC2s false = some "chacha20-poly1305@openssh.com" ∧
        negotiate serverCiphers k.encS2c false = some "chacha20-poly1305@openssh.com" ∧
        negotiate serverHostKey k.hostKey false = some "ssh-ed25519" ∧
        (negotiate ["curve25519-sha256", "curve25519-sha256@libssh.org"] k.kex true).isSome = true ∧
        (negotiate serverComp k.compC2s false).isSome = true)) = true := by
    decide +kernel
  cases hp : KexInit.parseBody strictKexinit (.new strictKexinit) with
  | panic =>
    rw [hp] at hparse
    cases hparse
  | err e q =>
    rw [hp] at hparse
    cases hparse
  | ok theirs q =>
    rw [hp] at hparse
    obtain ⟨hc2s, hs2c, hhost, hkex, hcomp⟩ := of_decide_eq_true hparse
    exact .kexinit rfl hp ⟨hc2s, hs2c, hhost, hkex, hcomp⟩

theorem takesNext_not_slips {x : Connection} (h : takesNext x p = true) : ¬Slips x p := by
  simp only [takesNext, Bool.or_eq_true, Bool.and_eq_true, beq_iff_eq, Bool.not_eq_true',
    decide_eq_true_eq] at h
  rcases h with (⟨rfl, ht⟩ | ⟨⟨⟨⟨⟨rfl, hs⟩, hpend⟩, hrole⟩, ht⟩, hz⟩) | ⟨⟨rfl, hs⟩, hpk⟩
  · exact (strictKexinit_takes x).not_slips (m := .kexinit) rfl (by decide)
      (fun hne => absurd rfl hne) (fun _ => ht) fun h => absurd h (by decide)
  · obtain ⟨theirs, ht⟩ := Option.isSome_iff_exists.mp ht
    obtain ⟨k, hk, ht⟩ := Option.bind_eq_some_iff.mp ht
    have htakes : x.Takes (Msg.ecdhInit Toy.point) :=
      .ecdhInit hrole (List.prefix_refl _) hk ht hz
    exact htakes.not_slips (m := .kexEcdhInit) rfl (by decide) (fun _ => hs)
      (fun h => absurd h (by decide)) fun _ => hpend
  · have htakes : x.Takes Msg.newkeys := .newkeys rfl hpk
    exact htakes.not_slips (m := .newkeys) rfl (by decide) (fun _ => hs)
      (fun h => absurd h (by decide)) fun h => absurd h (by decide)

omit [CryptoLib] in
/-- The plain handshake: strict key exchange is on when it completes. -/
theorem run_strict_handshake : ∃ c x,
    @Setup.run Toy.lib (.server Toy.server) Toy.rng (strictPeer []) = .ok () c ∧
      x ∈ completions [] c.log ∧ x.1.firstKexDone = false ∧ x.1.strictKex = true ∧
      Handshake .server (x.2.map (·.2)) := by
  let _ := Toy.lib
  have hpass : ((Setup.server Toy.server).run Toy.rng (strictPeer [])).passes (fun c =>
      ((completions [] c.log).any fun x => !x.1.firstKexDone && x.1.strictKex) &&
      (completions [] c.log).all fun x => x.2.all fun y => takesNext y.1 y.2) = true := by
    decide +kernel
  obtain ⟨_, c, hrun, hc⟩ := Outcome.exists_of_passes hpass
  simp only [Bool.and_eq_true, List.any_eq_true, List.all_eq_true, Bool.not_eq_true'] at hc
  obtain ⟨⟨x, hx, hxf, hxs⟩, hall⟩ := hc
  refine ⟨c, x, hrun, hx, hxf, hxs, run_strict hrun (fun z hz _ _ y hy => ?_) x hx hxf hxs⟩
  exact takesNext_not_slips (hall z hz y hy)

omit [CryptoLib] in
/-- An IGNORE before the KEXINIT goes unnoticed. -/
theorem ignored_before_kexinit : ¬∀ (lib : CryptoLib) (setup : Setup) (rng : Rng)
    (calls : List Call) (c : Conn),
    @Setup.run lib setup rng calls = .ok () c → StrictRun setup.role c.log := by
  intro hclaim
  have hpass : (@Setup.run Toy.lib (.server Toy.server) Toy.rng
      (strictPeer (Toy.clearPacket [MsgType.ignore.code, 0, 0, 0, 0]))).passes (fun c =>
        (completions [] c.log).any fun x =>
          !x.1.firstKexDone && x.1.strictKex && decide (x.2.length = 4)) = true := by
    decide +kernel
  obtain ⟨_, c, hrun, hc⟩ := Outcome.exists_of_passes hpass
  simp only [Bool.and_eq_true, List.any_eq_true, Bool.not_eq_true', decide_eq_true_eq] at hc
  obtain ⟨x, hx, ⟨hxf, hxs⟩, hlen⟩ := hc
  obtain ⟨p1, p2, p3, hps, -⟩ := hclaim _ _ _ _ c hrun x hx hxf hxs
  have hthree := congrArg List.length hps
  rw [List.length_map, hlen] at hthree
  cases hthree

end Setup

end Ssproxy
