/-
  Ssproxy.Refine.Input

  The read side against the moves: every handler, the packet loop, and
  `process_in`.  A handler that returns has made one `Handles` move followed by
  steps; one that fails has made a `Faults` move followed by steps.
-/

import Ssproxy.Refine.Kex
import Ssproxy.Machine.Runs

namespace Ssproxy

open Lib Wire Connection Relation

variable [CryptoLib]

variable {p : Bytes} {c c' c1 : Conn}

omit [CryptoLib] in
/-- A message that was identified by its number, read again from the start. -/
theorem IsMsg.eq_cons {m : MsgType} {t : UInt8} {r : Bytes} (hm : IsMsg m p)
    (h : (Parser.new p).rest = t :: r) : p = m.code :: r := by
  rw [Parser.rest_new] at h
  subst h
  cases hm
  rfl

theorem Receives.drew (hr : Receives p c c1) (hd : Draws c1 c') : Failed c c' := .plain hr hd

/-- A handler whose last act is to queue one reply. -/
theorem Receives.answers {owner : Option UInt32} {reply : Bytes} (hr : Receives p c c1)
    (h : Answers c1.now p owner reply) :
    (queueMsg owner reply true c1).Sat (fun _ c' => Handled p c c') (fun _ c' => Failed c c') :=
  (queueMsg_sat owner reply true c1).mono (fun _ _ hq => .plain (Handles.answer hr h hq))
    fun _ _ hd => hr.drew hd

/-- A handler with nothing to do. -/
theorem Receives.skips (hr : Receives p c c1) (h : Ignores c1.now p) : Handled p c c1 :=
  .plain (Handles.skip hr h)

/-- A handler reads a field of the payload, or takes the default. -/
theorem Receives.parseOr {α β : Type} {d : α} {m : Proc Parser Error α} {q : Parser}
    {R : α → Parser → Prop} (hm : (m q).Sat R (fun _ _ => True)) {f : α × Parser → ConnM β}
    {Q : β → Conn → Prop} (hf : ∀ a q', (f (a, q') c1).Sat Q (fun _ c' => Failed c c')) :
    ((Proc.callOr d m q >>= f) c1).Sat Q (fun _ c' => Failed c c') := by
  refine (Proc.sat_callOr hm).bind ?_
  rintro ⟨a, q'⟩ _ rfl
  exact hf a q'

/-- The same, with what the procedure computed: it does not depend on the state
    around it. -/
theorem Receives.parseEq {α β : Type} (hr : Receives p c c1) {m : Proc Parser Error α} {q : Parser}
    {R : α → Parser → Prop} (hm : (m q).Sat R (fun _ _ => True)) {f : α × Parser → ConnM β}
    {Q : β → Conn → Prop}
    (hf : ∀ a q', (∀ {σ : Type} (s : σ), Proc.call m q s = .ok (a, q') s) → R a q' →
      (f (a, q') c1).Sat Q (fun _ c' => Failed c c')) :
    ((Proc.call m q >>= f) c1).Sat Q (fun _ c' => Failed c c') := by
  cases hmq : m q with
  | ok a q' =>
    have hcall : ∀ {σ : Type} (s : σ), Proc.call m q s = .ok (a, q') s := by
      intro σ s
      rw [Proc.call, hmq]
    rw [Proc.bind_of_ok (hcall c1)]
    exact hf a q' hcall (hm.of_ok hmq)
  | err e q' =>
    have hcall : (Proc.call m q : ConnM (α × Parser)) c1 = .err e c1 := by
      rw [Proc.call, hmq]
    rw [Proc.bind_apply, hcall]
    exact hr.failed
  | panic =>
    rw [hmq] at hm
    exact hm.elim

theorem Receives.parseOrEq {α β : Type} {d : α} {m : Proc Parser Error α} {q : Parser}
    {R : α → Parser → Prop} (hm : (m q).Sat R (fun _ _ => True)) {f : α × Parser → ConnM β}
    {Q : β → Conn → Prop}
    (hf : ∀ a q', (∀ {σ : Type} (s : σ), Proc.callOr d m q s = .ok (a, q') s) →
      (f (a, q') c1).Sat Q (fun _ c' => Failed c c')) :
    ((Proc.callOr d m q >>= f) c1).Sat Q (fun _ c' => Failed c c') := by
  have hex : ∃ a q', ∀ {σ : Type} (s : σ), Proc.callOr d m q s = .ok (a, q') s := by
    cases hmq : m q with
    | ok a q' => exact ⟨a, q', fun s => by rw [Proc.callOr, hmq]⟩
    | err e q' => exact ⟨d, q', fun s => by rw [Proc.callOr, hmq]⟩
    | panic =>
      rw [hmq] at hm
      exact hm.elim
  obtain ⟨a, q', hcall⟩ := hex
  rw [Proc.bind_of_ok (hcall c1)]
  exact hf a q' hcall

/-- A packet and what followed it. -/
theorem Handled.settles (h : Handled p c c') : ∃ c1, Handles p c c1 ∧ Settles c1 c' := by
  cases h with
  | plain h => exact ⟨c', h, .steps .refl⟩
  | trailing h ht hs hidle => exact ⟨_, h, hs⟩

namespace Connection

-- ============================================================================
-- Service and user authentication
-- ============================================================================

theorem disconnect_sat (reason : UInt32) (msg : String) (c : Conn) :
    (disconnect reason msg c).Sat (fun _ c' => HangsUp reason msg c c') (fun _ _ => False) := by
  unfold disconnect
  rw [Proc.bind_of_ok (Traced.read_apply c), Proc.ite_apply]
  split
  · rename_i hc
    exact .again hc
  · rename_i hc
    have hc := eq_false_of_ne_true hc
    refine Outcome.Sat.bind (R := fun _ c1 => Sends none (Msg.disconnect reason msg) c c1)
      (Proc.sat_ignore ((queueMsg_sends _ _ c (by simp)).mono (fun _ _ h => .inl h)
        fun _ _ h => .inr h)) ?_
    intro _ c1 hs
    exact .first hc hs

theorem authFail_sat (cfg : ServerConfig) (c : Conn) :
    (authFail cfg c).Sat (fun _ c' => Denies cfg c c') (fun _ _ => False) := by
  unfold authFail
  rw [Proc.bind_of_ok (Traced.read_apply c), Proc.ite_apply]
  split
  · rename_i hge
    exact (disconnect_sat _ _ c).mono (fun _ _ h => .hard hge h) fun _ _ h => h
  · rename_i hge
    refine (queueMsg_short none Msg.userauthFailure c (by simp [Msg.userauthFailure])
      (by decide +kernel)).mono (fun _ _ h => .soft ?_ h) fun _ _ h => h
    exact UInt32.not_le.mp hge

theorem onServiceRequest_sat (hr : Receives p c c1) (hm : IsMsg .serviceRequest p) :
    (onServiceRequest p c1).Sat (fun _ c' => Handled p c c') (fun _ c' => Failed c c') := by
  unfold onServiceRequest
  rw [Proc.bind_of_ok (Traced.read_apply c1), Proc.ite_apply]
  split
  · rename_i hrole
    exact hr.skips (.notServer (role_of_not_server hrole) hm (.inl rfl))
  rename_i hrole
  refine hr.parse (Parser.u8_sat _) fun t p1 h1 => ?_
  refine hr.parse (Parser.str_sat _) ?_
  rintro name p2 ⟨_, h2⟩
  refine hr.check fun hname => ?_
  refine hr.answers (.service (not_not.mp hrole) ?_ ?_)
  · rw [hm.eq_cons h1, h2]
    exact ⟨p2.rest, by simp⟩
  · by_contra h
    exact hname (not_or.mp h)

theorem onServiceAccept_sat (hr : Receives p c c1) (hm : IsMsg .serviceAccept p)
    (hwf : WellFormed c1) :
    (onServiceAccept c1).Sat (fun _ c' => Handled p c c') (fun _ c' => Failed c c') := by
  unfold onServiceAccept
  rw [Proc.bind_of_ok (Traced.read_apply c1), Proc.ite_apply]
  split
  · rename_i hrole
    exact hr.skips (.notClient (role_of_not_client hrole) hm)
  rename_i hrole
  have hrole := not_not.mp hrole
  obtain ⟨cfg, hcfg⟩ := Option.isSome_iff_exists.mp (hwf.kex.client hrole)
  have hcfg : c1.now.client = some cfg := hcfg
  rw [Proc.bind_of_ok (unwrap_of_eq hcfg c1)]
  exact hr.answers (.credentials hrole hcfg hm)

/-- A request that is refused before the password is looked at. -/
theorem denied (hr : Receives p c c1) (hm : IsMsg .userauthRequest p) {cfg : ServerConfig}
    (hrole : c1.now.role = .server) (hcfg : c1.now.server = some cfg) (ho : Unchecked p) :
    (authFail cfg c1).Sat (fun _ c' => Handled p c c') (fun _ c' => Failed c c') :=
  (authFail_sat cfg c1).mono (fun _ _ h => .plain (Handles.authOther hr hrole hcfg hm h ho))
    fun _ _ h => h.elim

theorem onUserauthRequest_sat (hr : Receives p c c1) (hm : IsMsg .userauthRequest p)
    (hwf : WellFormed c1) :
    (onUserauthRequest p c1).Sat (fun _ c' => Handled p c c') (fun _ c' => Failed c c') := by
  unfold onUserauthRequest
  rw [Proc.bind_of_ok (Traced.read_apply c1), Proc.ite_apply]
  split
  · rename_i hrole
    exact hr.skips (.notServer (role_of_not_server hrole) hm (.inr rfl))
  rename_i hrole
  have hrole := not_not.mp hrole
  obtain ⟨cfg, hcfg⟩ := Option.isSome_iff_exists.mp (hwf.kex.server hrole)
  have hcfg : c1.now.server = some cfg := hcfg
  rw [Proc.bind_of_ok (unwrap_of_eq hcfg c1)]
  refine hr.parse (Parser.u8_sat _) fun t p1 h1 => ?_
  refine hr.parse (Parser.str_sat _) ?_
  rintro user p2 ⟨_, h2⟩
  refine hr.parse (Parser.str_sat _) ?_
  rintro service p3 ⟨_, h3⟩
  refine hr.parse (Parser.str_sat _) ?_
  rintro method p4 ⟨_, h4⟩
  refine hr.check fun hservice => ?_
  have hother : method ≠ "password" → Unchecked p := by
    intro hne
    have hprefix : MsgType.userauthRequest.code ::
        (putStr user ++ putStr "ssh-connection" ++ putStr method) <+: p := by
      refine ⟨p4.rest, ?_⟩
      rw [hm.eq_cons h1, h2, h3, h4, not_not.mp hservice]
      simp
    exact .method hne hprefix
  dsimp only
  rw [Proc.ite_apply]
  split
  · rename_i hnone
    refine denied hr hm hrole hcfg (hother ?_)
    rw [hnone]
    decide
  rw [Proc.ite_apply]
  split
  · rename_i hmethod
    exact denied hr hm hrole hcfg (hother hmethod)
  rename_i hmethod
  refine hr.parse (Parser.bool_sat _) ?_
  rintro changing p5 ⟨b, h5, hb⟩
  dsimp only
  rw [Proc.ite_apply]
  split
  · rename_i hchanging
    have hone : b ≠ 0 := by
      rw [hb] at hchanging
      simpa using hchanging
    have hprefix : MsgType.userauthRequest.code ::
        (putStr user ++ putStr "ssh-connection" ++ putStr "password" ++ [b]) <+: p := by
      refine ⟨p5.rest, ?_⟩
      rw [hm.eq_cons h1, h2, h3, h4, h5, not_not.mp hservice, not_not.mp hmethod]
      simp
    exact denied hr hm hrole hcfg (.change hone hprefix)
  rename_i hchanging
  refine hr.parse (Parser.str_sat _) ?_
  rintro password p6 ⟨_, h6⟩
  have hmsg : Msg.passwordRequest user password <+: p := by
    have hzero : b = 0 := by
      rw [hb] at hchanging
      simpa using hchanging
    refine ⟨p6.rest, ?_⟩
    rw [hm.eq_cons h1, h2, h3, h4, h5, h6, not_not.mp hservice, not_not.mp hmethod, hzero]
    simp [Msg.passwordRequest, putBool]
  rw [Proc.bind_of_ok (Traced.observe_apply _ c1), Proc.ite_apply]
  split
  · rename_i hok
    rw [Proc.bind_of_ok (Traced.update_apply _ _), Proc.bind_of_ok (Traced.observe_apply _ _), hok]
    refine ((queueMsg_short none Msg.userauthSuccess _ (by simp [Msg.userauthSuccess])
      (by decide +kernel)).mono (fun _ _ h => h) fun _ _ h => h.elim).bind fun _ c2 hq => ?_
    exact .plain (Handles.authAccept hr hrole hcfg hmsg hok hq)
  · rename_i hbad
    have hbad := eq_false_of_ne_true hbad
    rw [Proc.bind_of_ok (Traced.update_apply _ _), hbad]
    exact (authFail_sat cfg _).mono
      (fun _ _ h => .plain (Handles.authReject hr hrole hcfg hmsg hbad h)) fun _ _ h => h.elim

-- ============================================================================
-- Channel messages
-- ============================================================================

theorem onGlobalRequest_sat (hr : Receives p c c1) (hm : IsMsg .globalRequest p) :
    (onGlobalRequest p c1).Sat (fun _ c' => Handled p c c') (fun _ c' => Failed c c') := by
  unfold onGlobalRequest
  refine hr.parseEq (Parser.u8_sat _) fun t p1 h1 _ => ?_
  refine Receives.parseOrEq (Parser.str_sat _) fun name p2 h2 => ?_
  refine Receives.parseOrEq (Parser.bool_sat _) fun want p3 h3 => ?_
  have hwants : globalWants p = want := by
    simp only [globalWants, Proc.bind_apply, h1, h2, h3, Outcome.bind_ok]
    rfl
  dsimp only
  rw [Proc.ite_apply]
  split
  · rename_i hwant
    have hwants := hwants.trans hwant
    rw [Proc.ite_apply]
    split
    · exact hr.answers (.global hm hwants (.inl rfl))
    · exact hr.answers (.global hm hwants (.inr rfl))
  · exact hr.skips (.passive hm (by decide))

theorem onChannelOpen_sat (hr : Receives p c c1) (hm : IsMsg .channelOpen p)
    (hwf : WellFormed c1) :
    (onChannelOpen p c1).Sat (fun _ c' => Handled p c c') (fun _ c' => Failed c c') := by
  unfold onChannelOpen
  rw [Proc.bind_of_ok (Traced.read_apply c1)]
  refine hr.check fun hauth => ?_
  have hauth : c1.now.authed = true := by simpa using hauth
  refine hr.parse (Parser.u8_sat _) fun t p1 h1 => ?_
  refine hr.parse (Parser.str_sat _) ?_
  rintro typ p2 ⟨_, h2⟩
  refine hr.parse (Parser.u32_sat _) fun remote p3 h3 => ?_
  refine hr.parse (Parser.u32_sat _) fun w p4 h4 => ?_
  refine hr.parse (Parser.u32_sat _) fun m p5 h5 => ?_
  dsimp only
  rw [Proc.ite_apply]
  split
  · rename_i htyp
    refine ((allocChannel_sat _ hwf.table).mono (fun _ _ h => h)
      fun _ _ h => h ▸ hr.failed).bind fun id c2 ha => ?_
    refine .plain (Handles.openSession hr ?_ hauth ha)
    rw [hm.eq_cons h1, h2, h3, h4, h5, htyp]
    exact ⟨p5.rest, by simp⟩
  rename_i hsession
  rw [Proc.ite_apply]
  split
  · rename_i htyp
    refine hr.parse (Parser.str_sat _) ?_
    rintro host p6 ⟨_, h6⟩
    refine hr.parse (Parser.u32_sat _) fun port p7 h7 => ?_
    refine hr.parse (Parser.str_sat _) ?_
    rintro orig p8 ⟨_, h8⟩
    refine hr.parse (Parser.u32_sat _) fun oport p9 h9 => ?_
    refine ((allocChannel_sat _ hwf.table).mono (fun _ _ h => h)
      fun _ _ h => h ▸ hr.failed).bind fun id c2 ha => ?_
    refine .plain (Handles.openDirect hr ?_ hauth ha ⟨orig, oport, p9.rest, ?_⟩)
    · rw [hm.eq_cons h1, h2, h3, h4, h5, h6, h7, htyp]
      exact ⟨p7.rest, by simp⟩
    · rw [hm.eq_cons h1, h2, h3, h4, h5, h6, h7, h8, h9, htyp]
      simp
  · rename_i hdirect
    refine hr.answers (.unknownType hauth ?_ ⟨hsession, hdirect⟩ ⟨w, m, p5.rest, ?_⟩)
    · rw [hm.eq_cons h1, h2, h3]
      exact ⟨p3.rest, by simp⟩
    · rw [hm.eq_cons h1, h2, h3, h4, h5]
      simp

theorem onOpenConfirm_sat (hr : Receives p c c1) (hm : IsMsg .channelOpenConfirmation p) :
    (onOpenConfirm p c1).Sat (fun _ c' => Handled p c c') (fun _ c' => Failed c c') := by
  unfold onOpenConfirm
  refine hr.parse (Parser.u8_sat _) fun t p1 h1 => ?_
  refine hr.parse (Parser.u32_sat _) fun id p2 h2 => ?_
  refine hr.parse (Parser.u32_sat _) fun remote p3 h3 => ?_
  refine hr.parse (Parser.u32_sat _) fun w p4 h4 => ?_
  refine hr.parse (Parser.u32_sat _) fun m p5 h5 => ?_
  dsimp only
  cases hch : c1.now.channels.get? id with
  | none =>
    rw [Proc.bind_apply, getChannel_none hch]
    exact hr.failed
  | some ch =>
    rw [Proc.bind_of_ok (getChannel_some hch), Proc.bind_of_ok (setChannel_apply _ _ _),
      Proc.bind_of_ok (pushEvent_apply _ _)]
    have hmsg : MsgType.channelOpenConfirmation.code ::
        (putU32 id ++ putU32 remote ++ putU32 w ++ putU32 m) <+: p := by
      rw [hm.eq_cons h1, h2, h3, h4, h5]
      exact ⟨p5.rest, by simp⟩
    have htrails : Trails p c.now := .confirmed hmsg (hr.channels ▸ hch)
    exact (flushPending_returns id _).mono
      (fun _ _ hs => .trailing (Handles.openConfirm hr hmsg hch) htrails
        (.steps (StepsAt.steps hs)) fun h => absurd (hm.unique h) (by decide))
      fun _ _ h => h.elim

theorem onOpenFail_sat (hr : Receives p c c1) (hm : IsMsg .channelOpenFailure p) :
    (onOpenFail p c1).Sat (fun _ c' => Handled p c c') (fun _ c' => Failed c c') := by
  unfold onOpenFail
  refine hr.parse (Parser.u8_sat _) fun t p1 h1 => ?_
  refine hr.parse (Parser.u32_sat _) fun id p2 h2 => ?_
  refine hr.parse (Parser.u32_sat _) fun reason p3 h3 => ?_
  refine Receives.parseOr (Parser.str_sat _) fun msg p4 => ?_
  dsimp only
  rw [Proc.bind_of_ok (freeChannel_apply id c1)]
  refine .plain (Handles.openFail hr ?_)
  rw [hm.eq_cons h1, h2, h3]
  exact ⟨p3.rest, by simp⟩

theorem onWindowAdjust_sat (hr : Receives p c c1) (hm : IsMsg .channelWindowAdjust p) :
    (onWindowAdjust p c1).Sat (fun _ c' => Handled p c c') (fun _ c' => Failed c c') := by
  unfold onWindowAdjust
  refine hr.parse (Parser.u8_sat _) fun t p1 h1 => ?_
  refine hr.parse (Parser.u32_sat _) fun id p2 h2 => ?_
  refine hr.parse (Parser.u32_sat _) fun add p3 h3 => ?_
  dsimp only
  cases hch : c1.now.channels.get? id with
  | none =>
    rw [Proc.bind_apply, getChannel_none hch]
    exact hr.failed
  | some ch =>
    rw [Proc.bind_of_ok (getChannel_some hch), Proc.bind_of_ok (setChannel_apply _ _ _)]
    have hmsg : Msg.windowAdjust id add <+: p := by
      rw [hm.eq_cons h1, h2, h3]
      exact ⟨p3.rest, by simp [Msg.windowAdjust]⟩
    have htrails : Trails p c.now := .adjusted hmsg (hr.channels ▸ hch)
    have hhandle := Handles.windowAdjust hr hmsg hch
    generalize withChannel c1 id { ch with sendWindow := saturatingAdd32 ch.sendWindow add } = c2
      at hhandle ⊢
    by_cases hidle : ∀ ch, c2.now.channels.get? id = some ch → ¬Flushable c2.now ch
    · rw [flushPending_idle id hidle]
      exact .plain hhandle
    · exact (flushPending_returns id _).mono
        (fun _ _ hs => .trailing hhandle htrails (.steps (StepsAt.steps hs))
          fun _ hno => absurd (hno id) hidle)
        fun _ _ h => h.elim

omit [CryptoLib] in
theorem pushIn_apply (data : Bytes) (ch : Channel) :
    Channel.pushIn data ch = if UInt32.ofNat data.length ≤ ch.recvWindow then
      .ok () { ch with
        recvWindow := ch.recvWindow - UInt32.ofNat data.length
        inQBytes := ch.inQBytes + data.length
        inQ := ch.inQ ++ [data] }
      else .err (.protocol "channel window exceeded") ch := by
  unfold Channel.pushIn
  rw [Proc.bind_of_ok (Proc.get_apply ch), Proc.ite_apply]
  by_cases hle : UInt32.ofNat data.length ≤ ch.recvWindow
  · rw [if_pos hle, if_neg (UInt32.not_lt.mpr hle),
      Proc.bind_of_ok (Proc.checkedSub32_of_le hle ch)]
    rfl
  · rw [if_neg hle, if_pos (UInt32.not_le.mp hle)]
    rfl

theorem deliver_sat {id : UInt32} {data : Bytes} (hr : Receives p c c1)
    (hm : Msg.channelData id data <+: p
      ∨ ∃ code, MsgType.channelExtendedData.code :: (putU32 id ++ putU32 code ++ putBytes data)
          <+: p) :
    (deliver id data c1).Sat (fun _ c' => Handled p c c') (fun _ c' => Failed c c') := by
  unfold deliver
  cases hch : c1.now.channels.get? id with
  | none =>
    rw [Proc.bind_apply, getChannel_none hch]
    exact hr.failed
  | some ch =>
    rw [Proc.bind_of_ok (getChannel_some hch), Proc.bind_apply]
    unfold Proc.call
    rw [pushIn_apply]
    split
    · rename_i h
      split at h
      · rename_i hle
        cases h
        exact .plain (Handles.deliver hr hm hch hle)
      · cases h
    · exact hr.failed
    · rename_i h
      split at h <;> cases h

omit [CryptoLib] in
/-- Nine bytes and what follows them: a number, two integers, and the rest. -/
theorem exists_header {p : Bytes} (h : 9 ≤ p.length) : ∃ (t : UInt8) (a b : UInt32) (r : Bytes),
    p = t :: (beBytes a ++ beBytes b ++ r) := by
  match p, h with
  | t :: a0 :: a1 :: a2 :: a3 :: b0 :: b1 :: b2 :: b3 :: r, _ =>
    exact ⟨t, ofBe a0 a1 a2 a3, ofBe b0 b1 b2 b3, r, by simp [beBytes_ofBe]⟩

omit [CryptoLib] in
theorem beU32_beBytes {σ : Type} (v : UInt32) (s : σ) :
    (beU32 (beBytes v) : Proc σ Error UInt32) s = .ok v s := by
  simp only [beBytes, beU32, ofBe_beBytes, Proc.pure_apply]

theorem onChannelData_sat (hr : Receives p c c1) (hm : IsMsg .channelData p) :
    (onChannelData p c1).Sat (fun _ c' => Handled p c c') (fun _ c' => Failed c c') := by
  unfold onChannelData
  refine hr.check fun hshort => ?_
  obtain ⟨t, id, len, r, hp⟩ := exists_header (Nat.le_of_not_lt hshort)
  have ht : t = MsgType.channelData.code := by
    rw [hp] at hm
    exact Option.some.inj hm
  have hlen : p.length = 9 + r.length := by
    rw [hp]
    simp only [List.length_cons, List.length_append, length_beBytes]
    omega
  have h1 : (p.drop 1).take (5 - 1) = beBytes id := by
    rw [hp]
    rfl
  have h2 : (p.drop 5).take (9 - 5) = beBytes len := by
    rw [hp]
    rfl
  rw [Proc.bind_of_ok (Proc.slice_of_le (by omega) (by omega) c1), h1,
    Proc.bind_of_ok (beU32_beBytes id c1),
    Proc.bind_of_ok (Proc.slice_of_le (by omega) (by omega) c1), h2,
    Proc.bind_of_ok (beU32_beBytes len c1)]
  refine hr.check fun htrunc => ?_
  have htrunc : 9 + len.toNat ≤ p.length := Nat.le_of_not_lt htrunc
  have h3 : (p.drop 9).take (9 + len.toNat - 9) = r.take len.toNat := by
    rw [hp, Nat.add_sub_cancel_left]
    rfl
  rw [Proc.bind_of_ok (Proc.slice_of_le (by omega) htrunc c1), h3]
  refine deliver_sat hr (.inl ⟨r.drop len.toNat, ?_⟩)
  have htake : (r.take len.toNat).length = len.toNat := by
    rw [List.length_take]
    omega
  rw [hp, ht]
  simp [Msg.channelData, putBytes, putU32, htake]

theorem onExtData_sat (hr : Receives p c c1) (hm : IsMsg .channelExtendedData p) :
    (onExtData p c1).Sat (fun _ c' => Handled p c c') (fun _ c' => Failed c c') := by
  unfold onExtData
  refine hr.parse (Parser.u8_sat _) fun t p1 h1 => ?_
  refine hr.parse (Parser.u32_sat _) fun id p2 h2 => ?_
  refine hr.parse (Parser.u32_sat _) fun code p3 h3 => ?_
  refine hr.parse (Parser.bytes_sat _) ?_
  rintro data p4 ⟨_, h4⟩
  refine deliver_sat hr (.inr ⟨code, p4.rest, ?_⟩)
  rw [hm.eq_cons h1, h2, h3, h4]
  simp

theorem onChannelEof_sat (hr : Receives p c c1) (hm : IsMsg .channelEof p) :
    (onChannelEof p c1).Sat (fun _ c' => Handled p c c') (fun _ c' => Failed c c') := by
  unfold onChannelEof
  refine hr.parse (Parser.u8_sat _) fun t p1 h1 => ?_
  refine hr.parse (Parser.u32_sat _) fun id p2 h2 => ?_
  have hmsg : Msg.channelEof id <+: p := by
    rw [hm.eq_cons h1, h2]
    exact ⟨p2.rest, by simp [Msg.channelEof]⟩
  dsimp only
  rw [Proc.bind_of_ok (Traced.read_apply c1)]
  cases hch : c1.now.channels.get? id with
  | none => exact .plain (Handles.peerEofUnknown hr hmsg hch)
  | some ch => exact .plain (Handles.peerEof hr hmsg hch)

theorem onChannelClose_sat (hr : Receives p c c1) (hm : IsMsg .channelClose p) :
    (onChannelClose p c1).Sat (fun _ c' => Handled p c c') (fun _ c' => Failed c c') := by
  unfold onChannelClose
  refine hr.parse (Parser.u8_sat _) fun t p1 h1 => ?_
  refine hr.parse (Parser.u32_sat _) fun id p2 h2 => ?_
  have hmsg : Msg.channelClose id <+: p := by
    rw [hm.eq_cons h1, h2]
    exact ⟨p2.rest, by simp [Msg.channelClose]⟩
  dsimp only
  rw [Proc.bind_of_ok (Traced.read_apply c1)]
  cases hch : c1.now.channels.get? id with
  | none => exact hr.skips (.closeUnknown hmsg hch)
  | some ch =>
    have hclose := Handles.peerClose hr hmsg hch
    -- both answers end with the event
    have hevent : ∀ m : ConnM Unit, Proc.Returns Steps m (withChannel c1 id
        { ch with gotClose := true, gotEof := true }) →
        ((m >>= fun _ => pushEvent (.channelClose id)) (withChannel c1 id
          { ch with gotClose := true, gotEof := true })).Sat
          (fun _ c' => Handled p c c') (fun _ c' => Failed c c') := by
      intro m hmsteps
      refine (hmsteps.mono (R := fun _ c' => Steps _ c') (fun _ _ h => h)
        fun _ _ h => h.elim).bind fun _ c2 hs => ?_
      have htrails : Trails p c.now := .closed hmsg (hr.channels ▸ hch)
      exact .trailing hclose htrails (.steps (hs.tail (Step.closeEvent c2 id)))
        fun h => absurd (hm.unique h) (by decide)
    dsimp only
    rw [Proc.bind_of_ok (setChannel_apply _ _ _), Proc.ite_apply]
    split
    · exact hevent _ (follows_steps (sendClose_follows id _)).ignore
    · exact hevent _ (follows_steps (emitCloseIfReady_follows id _)).ignore

theorem onChannelRequest_sat (hr : Receives p c c1) (hm : IsMsg .channelRequest p) :
    (onChannelRequest p c1).Sat (fun _ c' => Handled p c c') (fun _ c' => Failed c c') := by
  have hskip : Handled p c c1 := hr.skips (.passive hm (by decide))
  unfold onChannelRequest
  refine hr.parseEq (Parser.u8_sat _) fun t p1 he1 h1 => ?_
  refine hr.parseEq (Parser.u32_sat _) fun id p2 he2 h2 => ?_
  refine Receives.parseOrEq (Parser.str_sat _) fun name p3 he3 => ?_
  refine Receives.parseOrEq (Parser.bool_sat _) fun want p4 he4 => ?_
  have hwants : requestWants p = want := by
    simp only [requestWants, Proc.bind_apply, he1, he2, he3, he4, Outcome.bind_ok]
    rfl
  dsimp only
  rw [Proc.ite_apply]
  split
  · exact hskip
  rename_i hwant
  rw [Proc.bind_of_ok (Traced.read_apply c1)]
  cases hch : c1.now.channels.get? id with
  | none => exact hskip
  | some ch =>
    dsimp only [Option.bind_some]
    cases hrid : ch.remoteId with
    | none => exact hskip
    | some r =>
      refine hr.answers (.request ?_ (hwants.trans (by simpa using hwant)) hch hrid ?_)
      · rw [hm.eq_cons h1, h2]
        exact ⟨p2.rest, by simp⟩
      · split
        · exact .inl rfl
        · exact .inr rfl

theorem onPing_sat (hr : Receives p c c1) (hm : IsMsg .ping p) :
    (onPing p c1).Sat (fun _ c' => Handled p c c') (fun _ c' => Failed c c') := by
  unfold onPing
  refine hr.parse (Parser.u8_sat _) fun t p1 h1 => ?_
  refine Receives.parseOr (Parser.bytes_sat _) fun data p2 => ?_
  exact hr.answers (.ping hm)

theorem onDisconnect_sat (hr : Receives p c c1) (hm : IsMsg .disconnect p) :
    (onDisconnect p c1).Sat (fun _ c' => Handled p c c') (fun _ c' => Failed c c') := by
  unfold onDisconnect
  refine hr.parse (Parser.u8_sat _) fun t p1 h1 => ?_
  refine Receives.parseOr (Parser.u32_sat _) fun reason p2 => ?_
  refine Receives.parseOr (Parser.str_sat _) fun msg p3 => ?_
  exact .plain (Handles.disconnect hr hm)

-- ============================================================================
-- Dispatch
-- ============================================================================

theorem onUserauthSuccess_sat (hr : Receives p c c1) (hm : IsMsg .userauthSuccess p) :
    (onUserauthSuccess c1).Sat (fun _ c' => Handled p c c') (fun _ c' => Failed c c') :=
  .plain (Handles.userauthSuccess hr hm)

theorem handlePayload_sat (hr : Receives p c c1) (hwf : WellFormed c1)
    (hid : c1.now.identInDone = true) :
    (handlePayload p c1).Sat (fun _ c' => Handled p c c') (fun _ c' => Failed c c') := by
  obtain ⟨t, r, rfl⟩ := List.exists_cons_of_ne_nil hr.nonempty
  unfold handlePayload
  rw [Proc.bind_of_ok (Proc.index_of_lt (by simp) c1)]
  cases ht : MsgType.ofCode ((t :: r)[0]) with
  | none => exact hr.answers (.unknown rfl ht)
  | some m =>
    have hm : IsMsg m (t :: r) := congrArg some (MsgType.code_of_ofCode ht)
    cases m with
    | disconnect => exact onDisconnect_sat hr hm
    | ignore => exact hr.skips (.passive hm (by decide))
    | unimplemented => exact hr.skips (.passive hm (by decide))
    | debug => exact hr.skips (.passive hm (by decide))
    | serviceRequest => exact onServiceRequest_sat hr hm
    | serviceAccept => exact onServiceAccept_sat hr hm hwf
    | extInfo => exact hr.skips (.passive hm (by decide))
    | kexinit => exact onKexinit_sat hr hm hwf
    | newkeys => exact onNewkeys_sat hr hm hwf
    | kexEcdhInit => exact onEcdhInit_sat hr hwf hid
    | kexEcdhReply => exact onEcdhReply_sat hr hwf hid
    | userauthRequest => exact onUserauthRequest_sat hr hm hwf
    | userauthFailure => exact hr.failed
    | userauthSuccess => exact onUserauthSuccess_sat hr hm
    | userauthBanner => exact hr.skips (.passive hm (by decide))
    | globalRequest => exact onGlobalRequest_sat hr hm
    | requestSuccess => exact hr.skips (.passive hm (by decide))
    | requestFailure => exact hr.skips (.passive hm (by decide))
    | channelOpen => exact onChannelOpen_sat hr hm hwf
    | channelOpenConfirmation => exact onOpenConfirm_sat hr hm
    | channelOpenFailure => exact onOpenFail_sat hr hm
    | channelWindowAdjust => exact onWindowAdjust_sat hr hm
    | channelData => exact onChannelData_sat hr hm
    | channelExtendedData => exact onExtData_sat hr hm
    | channelEof => exact onChannelEof_sat hr hm
    | channelClose => exact onChannelClose_sat hr hm
    | channelRequest => exact onChannelRequest_sat hr hm
    | channelSuccess => exact hr.skips (.passive hm (by decide))
    | channelFailure => exact hr.skips (.passive hm (by decide))
    | ping => exact onPing_sat hr hm
    | pong => exact hr.skips (.passive hm (by decide))

-- ============================================================================
-- The packet loop
-- ============================================================================

omit [CryptoLib] in
theorem strictFilter_sat (k : Connection) (msg : UInt8) (c : Conn) :
    (strictFilter k msg c).Sat (fun _ c' => c' = c ∧ k.passes msg = true) (fun _ c' => c' = c) := by
  unfold strictFilter passes
  rw [Proc.ite_apply]
  split
  · rename_i harmed
    rw [Proc.bind_apply, Proc.failIf_apply, harmed]
    split
    · rfl
    · rename_i hignore
      rw [Outcome.bind_ok, Proc.failIf_apply]
      split
      · rfl
      · rename_i hkex
        refine ⟨rfl, ?_⟩
        simp only [Bool.and_eq_true, Bool.not_eq_true', bne_iff_ne, ne_eq, not_and,
          not_not] at hkex
        cases hk : isKexMsg msg with
        | true => simp [hignore]
        | false => simp [eq_false_of_ne_true hignore, ← hkex hk]
  · rename_i harmed
    rw [eq_false_of_ne_true harmed]
    exact ⟨rfl, rfl⟩

/-- What `handle_payload` does with every packet it can be given, `try_one_packet`
    does, unless it finds no packet or drops it. -/
theorem tryOnePacket_rule {Q : Bytes → Conn → Prop} {E : Conn → Prop} (c : Conn)
    (hwf : WellFormed c) (hid : c.now.identInDone = true) (hdrop : ∀ c', Faults c c' → E c')
    (hpay : ∀ p c1, Receives p c c1 → WellFormed c1 → c1.now.identInDone = true →
      (handlePayload p c1).Sat (fun _ c' => Q p c') (fun _ c' => E c')) :
    (tryOnePacket c).Sat
      (fun again c' => (again = false ∧ c' = c) ∨ (again = true ∧ ∃ p, Q p c'))
      (fun _ c' => c' = c ∨ E c') := by
  unfold tryOnePacket
  rw [Proc.bind_of_ok (Traced.read_apply c), Proc.bind_apply]
  have hsat := takePacket_sat c
  cases htake : takePacket c with
  | panic =>
    rw [htake] at hsat
    exact hsat
  | err e c1 =>
    rw [htake] at hsat
    exact hsat.imp id (hdrop c1)
  | ok r c1 =>
    rw [htake] at hsat
    rcases hsat with ⟨rfl, rfl, -⟩ | ⟨p, cipher, rest, total, rfl, hopen, rfl⟩
    · exact .inl ⟨rfl, rfl⟩
    obtain ⟨t, r, rfl⟩ := List.exists_cons_of_ne_nil hopen.nonempty
    have hfault := hdrop ⟨c.now.received cipher rest total, c.log⟩ (.drop hopen.kind)
    rw [Outcome.bind_ok]
    dsimp only
    rw [Proc.bind_of_ok (Proc.index_of_lt (by simp) _), Proc.bind_of_ok (Traced.read_apply _)]
    refine ((strictFilter_sat _ _ _).mono (fun _ _ h => h) fun _ _ h => .inr (h ▸ hfault)).bind ?_
    rintro _ _ ⟨rfl, hpass⟩
    have hr := Receives.mk htake hpass
    have hwf1 := hr.wellFormed hwf
    have hid1 : (c.now.received cipher rest total |>.resetRecv (t :: r)).identInDone = true :=
      (congrArg Ident.done hr.ident).trans hid
    have hrest := (hpay _ _ hr hwf1 hid1).mono (F := fun _ c' => c' = c ∨ E c')
      (fun _ _ h => h) fun _ _ h => .inr h
    rw [Proc.ite_apply]
    split
    · rename_i hnew
      have hreset : IsMsg .newkeys (t :: r) ∧ (c.now.received cipher rest total).strictKex :=
        ⟨congrArg some hnew.1, hnew.2⟩
      rw [Proc.bind_of_ok (Traced.update_apply _ _), Proc.bind_of_ok (Traced.observe_apply _ _)]
      unfold resetRecv at hrest
      rw [if_pos hreset] at hrest
      exact hrest.bind fun _ c' h => .inr ⟨rfl, _, h⟩
    · rename_i hnew
      have hreset : ¬(IsMsg .newkeys (t :: r) ∧ (c.now.received cipher rest total).strictKex) :=
        fun h => hnew ⟨Option.some.inj h.1, h.2⟩
      rw [Proc.bind_of_ok (Traced.observe_apply _ _)]
      unfold resetRecv at hrest
      rw [if_neg hreset] at hrest
      exact hrest.bind fun _ c' h => .inr ⟨rfl, _, h⟩

/-- A packet was dropped, or its handler failed. -/
inductive Misses (c c' : Conn) : Prop where
  | dropped (h : Faults c c')
  | refused {p : Bytes} {c1 : Conn} {e : Error} (hr : Receives p c c1)
      (he : handlePayload p c1 = .err e c') (hf : Failed c c')

theorem tryOnePacket_sat (c : Conn) (hwf : WellFormed c) (hid : c.now.identInDone = true) :
    (tryOnePacket c).Sat
      (fun again c' => (again = false ∧ c' = c) ∨ (again = true ∧ ∃ p, Handled p c c'))
      (fun _ c' => c' = c ∨ Misses c c') := by
  refine tryOnePacket_rule c hwf hid (fun _ h => .dropped h) fun p c1 hr hwf1 hid1 => ?_
  have hsat := handlePayload_sat hr hwf1 hid1
  cases hrun : handlePayload p c1 with
  | ok a c' => exact hsat.of_ok hrun
  | err e c' => exact .refused hr hrun (hsat.of_err hrun)
  | panic => exact hsat.ne_panic hrun

/-- Ready to take packets. -/
structure Ready (c : Conn) : Prop where
  wellFormed : WellFormed c
  ident : c.now.identInDone = true

theorem Ready.handled (h : Ready c) (hp : Handled p c c') : Ready c' := by
  obtain ⟨c1, hh, hs⟩ := hp.settles
  refine ⟨hs.trail.wellFormed (hh.wellFormed h.wellFormed), ?_⟩
  have h1 : c1.now.identInDone = c.now.identInDone := congrArg Ident.done hh.ident
  have h2 : c'.now.identInDone = c1.now.identInDone := congrArg Ident.done hs.trail.extends.ident
  rw [h2, h1]
  exact h.ident

end Connection

theorem Steps.turns (h : Steps c c') : Turns c c' :=
  ReflTransGen.mono (fun _ _ hs => Turn.quiet (.step hs)) c c' h

theorem Handled.turns (h : Handled p c c') : Turns c c' := by
  obtain ⟨c1, hh, hs⟩ := h.settles
  exact .single (Turn.packet hh hs)

theorem Turns.breaks (h : Turns c c') : Breaks c c' := .mk h (.inl rfl) .refl

theorem Turns.misses (h : Turns c c1) (hm : Misses c1 c') (hready : Ready c1) : Breaks c c' := by
  have hid := hready.ident
  cases hm with
  | dropped hf => exact .mk h (.inr hf) .refl
  | refused hr he hf =>
    cases hf with
    | plain hr' hd =>
      obtain ⟨rfl, rfl⟩ := hr.unique hr'
      exact .mk h (.inr (.reject hr ⟨_, _, he⟩ hid)) (.single (Step.draw hd))
    | spoiled hr' hm hrole hk hsec ks =>
      obtain ⟨rfl, rfl⟩ := hr.unique hr'
      exact .mk h (.inr (.spoil hr hm hrole hk hsec ⟨_, _, he⟩ hid)) .refl
    | kexinit hr' hm hp hj =>
      obtain ⟨rfl, rfl⟩ := hr.unique hr'
      exact .mk h (.inr (.reject hr ⟨_, _, he⟩ hid))
        (joins_steps hj (hr.wellFormed hready.wellFormed))

theorem Breaks.after (h : Turns c c1) (hb : Breaks c1 c') : Breaks c c' := by
  cases hb with
  | mk ht hf hs => exact .mk (h.trans ht) hf hs

-- ============================================================================
-- Turns as moves
-- ============================================================================

theorem Trail.calms {P : Cause → Prop} (h : Trail P c c') : ReflTransGen Calm c c' :=
  ReflTransGen.mono (fun _ _ ⟨_, _, hk⟩ => Calm.own hk) c c' h

theorem Turns.calms (h : Turns c c') : ReflTransGen Calm c c' := by
  induction h with
  | refl => exact .refl
  | tail _ hturn ih =>
    cases hturn with
    | quiet h => exact ih.tail (Calm.quiet h)
    | packet h hs => exact (ih.tail (Calm.quiet (.handle h))).trans hs.trail.calms

theorem calms_moves (h : ReflTransGen Calm c c') : Moves c c' := by
  refine ReflTransGen.mono (fun c1 c2 hc => ?_) c c' h
  cases hc with
  | quiet h => exact Move.quiet h
  | recv bytes => exact Move.recv c1 bytes
  | own h => exact Move.own h

theorem Breaks.moves (h : Breaks c c') : Moves c c' := by
  cases h with
  | mk ht hf hs =>
    have hturns := calms_moves (Turns.calms ht)
    have hsteps := calms_moves (Trail.calms (Steps.trail hs))
    rcases hf with rfl | hf
    · exact hturns.trans hsteps
    · exact (hturns.tail (Move.fault hf)).trans hsteps

end Ssproxy
