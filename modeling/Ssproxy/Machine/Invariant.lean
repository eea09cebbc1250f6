/-
  Ssproxy.Machine.Invariant

  What holds in every reachable state.  `KexOk` is the invariant of the key
  exchange, over the control part of a connection; `TableOk` is the one of the
  channel table.

  Both are shown for each effect, then for each move, then for every sequence
  of moves.
-/

import Ssproxy.Machine.Frame
import Ssproxy.Table

namespace Ssproxy

open Lib Wire Connection

-- ============================================================================
-- The invariants
-- ============================================================================

/-- The invariant of the key exchange. -/
structure KexOk (k : Control) : Prop where
  identPeer : k.conn.identInDone = true → k.conn.identPeer.isSome = true
  server : k.conn.role = .server → k.conn.server.isSome = true
  client : k.conn.role = .client → k.conn.client.isSome = true
  kexinit : k.conn.sentKexinit = k.conn.kex.isSome
  pending : ∀ pk, k.conn.pendingKeys = some pk →
    k.conn.kex.isSome = true ∧ k.conn.sentNewkeys = true ∧ pk.recv.kind.isAead = true
  unfinished : k.conn.kex.isSome = true → k.conn.recvNewkeys = false
  switched : k.conn.kex.isSome = true → k.conn.sentNewkeys = true → k.sendKind.isAead = true
  negotiated : ∀ x, k.conn.kex = some x → x.theirs.isSome = true →
    (∃ a, x.cipherC2s = some a ∧ a.isAead = true) ∧ (∃ a, x.cipherS2c = some a ∧ a.isAead = true)
  ours : ∀ x, k.conn.kex = some x → ∃ cookie,
    x.ours = KexInit.build cookie k.conn.kexNames serverHostKey serverCiphers serverMacs
  ephemeral : k.conn.role = .client → ∀ x, k.conn.kex = some x → ∃ pub, x.localPub = some pub
  encrypted : k.conn.firstKexDone = true → k.sendKind.isAead = true ∧ k.recvKind.isAead = true

/-- Both invariants. -/
structure WellFormed (c : Conn) : Prop where
  kex : KexOk c.now.control
  table : TableOk c.now.channels

-- ============================================================================
-- Derived keys
-- ============================================================================

/-- A negotiated cipher is an AEAD cipher. -/
theorem fromName_of_negotiate {names : List String} {n : String}
    (h : negotiate serverCiphers names false = some n) :
    ∃ k, CipherKind.fromName n = some k ∧ k.isAead = true := by
  have hmem : n ∈ serverCiphers := List.mem_of_find?_eq_some h
  simp only [serverCiphers, List.mem_cons, List.not_mem_nil, or_false] at hmem
  rcases hmem with rfl | rfl | rfl
  · exact ⟨.chaCha20Poly1305, by decide, rfl⟩
  · exact ⟨.aes256Gcm, by decide, rfl⟩
  · exact ⟨.aes128Gcm, by decide, rfl⟩

variable [CryptoLib]

/-- The extension loop reaches the wanted length. -/
theorem le_length_extendKey (kMpint h : Bytes) (outLen : Nat) :
    ∀ (fuel : Nat) (key : Bytes), outLen ≤ key.length + fuel →
      outLen ≤ (extendKey kMpint h outLen fuel key).length
  | 0, key, hlen => hlen
  | fuel + 1, key, hlen => by
      rw [extendKey]
      split
      · refine le_length_extendKey kMpint h outLen fuel _ ?_
        rw [List.length_append, (CryptoLib.sha256 _).property]
        omega
      · omega

theorem deriveBlock_apply (kMpint h sid : Bytes) (letter : UInt8) (outLen : Nat) :
    ∃ b : Bytes, b.length = outLen ∧
      ∀ {σ : Type} (s : σ), deriveBlock kMpint h sid letter outLen s = .ok b s := by
  have hlen := le_length_extendKey kMpint h outLen outLen
    (CryptoLib.sha256 (kMpint ++ h ++ [letter] ++ sid)).val (Nat.le_add_left _ _)
  refine ⟨_, ?_, fun s => Proc.slice_of_le (Nat.zero_le _) hlen s⟩
  simp only [List.drop_zero, Nat.sub_zero, List.length_take]
  omega

/-- `make_keys` succeeds, and derives a key of the kind that was asked for. -/
theorem makeKeys_apply (kMpint h sid : Bytes) (keyLetter ivLetter : UInt8) (kind : CipherKind) :
    (derivedKeys kMpint h sid keyLetter ivLetter kind).kind = kind ∧
      ∀ {σ : Type} (s : σ), makeKeys kMpint h sid keyLetter ivLetter kind s
        = .ok (derivedKeys kMpint h sid keyLetter ivLetter kind) s := by
  -- the result does not depend on the state the procedure runs in
  have hex : ∃ k : DirectionKeys, k.kind = kind ∧
      ∀ {σ : Type} (s : σ), makeKeys kMpint h sid keyLetter ivLetter kind s = .ok k s := by
    obtain ⟨iv8, -, h8⟩ := deriveBlock_apply kMpint h sid ivLetter 8
    obtain ⟨iv12, hlen12, h12⟩ := deriveBlock_apply kMpint h sid ivLetter 12
    obtain ⟨key16, hlen16, h16⟩ := deriveBlock_apply kMpint h sid keyLetter 16
    obtain ⟨key32, hlen32, h32⟩ := deriveBlock_apply kMpint h sid keyLetter 32
    obtain ⟨key64, hlen64, h64⟩ := deriveBlock_apply kMpint h sid keyLetter 64
    have hiv : iv12.take 12 = iv12 := List.take_of_length_le (Nat.le_of_eq hlen12)
    unfold makeKeys
    cases kind with
    | clear =>
      refine ⟨.clear, rfl, fun s => ?_⟩
      simp [CipherKind.keyLen, CipherKind.ivLen, h8, DirectionKeys.fromMaterial]
    | chaCha20Poly1305 =>
      refine ⟨.chaCha (.new ⟨key64, hlen64⟩), rfl, fun s => ?_⟩
      simp [CipherKind.keyLen, CipherKind.ivLen, h64, h8, DirectionKeys.fromMaterial,
        Block.ofBytes?_of_length hlen64]
    | aes128Gcm =>
      refine ⟨.aes ⟨.aes128Gcm, .aes128 ⟨key16, hlen16⟩, ⟨iv12, hlen12⟩, rfl⟩, rfl, fun s => ?_⟩
      simp [CipherKind.keyLen, CipherKind.ivLen, h16, h12, hiv, DirectionKeys.fromMaterial,
        AesGcmSsh.new, Block.ofBytes?_of_length hlen16, Block.ofBytes?_of_length hlen12,
        Except.map]
    | aes256Gcm =>
      refine ⟨.aes ⟨.aes256Gcm, .aes256 ⟨key32, hlen32⟩, ⟨iv12, hlen12⟩, rfl⟩, rfl, fun s => ?_⟩
      simp [CipherKind.keyLen, CipherKind.ivLen, h32, h12, hiv, DirectionKeys.fromMaterial,
        AesGcmSsh.new, Block.ofBytes?_of_length hlen32, Block.ofBytes?_of_length hlen12,
        Except.map]
  obtain ⟨k, hkind, hrun⟩ := hex
  have hd : derivedKeys kMpint h sid keyLetter ivLetter kind = k := by
    rw [derivedKeys, hrun ()]
    rfl
  rw [hd]
  exact ⟨hkind, hrun⟩

-- ============================================================================
-- Effects on the control part
-- ============================================================================

namespace KexOk

variable {c : Connection}

theorem started (h : KexOk c.control) (cookie : Block 16) (hnone : c.kex = none) :
    KexOk (c.started
      (KexInit.build cookie c.kexNames serverHostKey serverCiphers serverMacs)).control where
  identPeer := h.identPeer
  server := h.server
  client := h.client
  kexinit := rfl
  pending := by
    intro pk hpk
    have hsome := (h.pending pk hpk).1
    rw [show c.control.conn.kex = none from hnone] at hsome
    cases hsome
  unfinished := fun _ => rfl
  switched := by
    intro _ hs
    cases hs
  negotiated := by
    intro x hx ht
    cases hx
    cases ht
  ours := by
    intro x hx
    cases hx
    exact ⟨cookie, rfl⟩
  ephemeral := by
    intro hr x hx
    cases hx
    have hrole : c.role = .client := hr
    simp [Connection.ephemeral, hrole]
  encrypted := h.encrypted

omit [CryptoLib] in
theorem recorded (h : KexOk c.control) {k : KexState} {theirs : KexInit} {c2s s2c : String}
    (hk : c.kex = some k) (hn : Negotiates theirs c2s s2c) :
    KexOk (c.recorded k theirs c2s s2c).control where
  identPeer := h.identPeer
  server := h.server
  client := h.client
  kexinit := by
    rw [show (c.recorded k theirs c2s s2c).control.conn.sentKexinit = c.control.conn.sentKexinit
      from rfl, h.kexinit, show c.control.conn.kex = some k from hk]
    rfl
  pending := by
    intro pk hpk
    obtain ⟨-, hs, ha⟩ := h.pending pk hpk
    exact ⟨rfl, hs, ha⟩
  unfinished := fun _ => h.unfinished (by rw [show c.control.conn.kex = some k from hk]; rfl)
  switched := fun _ => h.switched (by rw [show c.control.conn.kex = some k from hk]; rfl)
  negotiated := by
    intro x hx _
    cases hx
    exact ⟨fromName_of_negotiate hn.c2s, fromName_of_negotiate hn.s2c⟩
  ours := by
    intro x hx
    cases hx
    exact h.ours k hk
  ephemeral := by
    intro hr x hx
    cases hx
    exact h.ephemeral hr k hk
  encrypted := h.encrypted

omit [CryptoLib] in
/-- The ephemeral secret plays no part in the invariant. -/
theorem secretSpent (h : KexOk c.control) (ks : Option Bytes) :
    KexOk ({ c with kex := c.kex.map fun k => { k with secret := none }, peerKs := ks } :
      Connection).control := by
  have hsome : (c.kex.map fun k => { k with secret := none }).isSome = c.kex.isSome := by
    rw [Option.isSome_map]
  refine ⟨h.identPeer, h.server, h.client, ?_, ?_, ?_, ?_, ?_, ?_, ?_, h.encrypted⟩
  · exact h.kexinit.trans hsome.symm
  · intro pk hpk
    obtain ⟨hk, hs, ha⟩ := h.pending pk hpk
    exact ⟨hsome.trans hk, hs, ha⟩
  · intro hk
    exact h.unfinished (hsome.symm.trans hk)
  · intro hk
    exact h.switched (hsome.symm.trans hk)
  · intro x hx ht
    obtain ⟨k, hk, rfl⟩ := Option.map_eq_some_iff.mp hx
    exact h.negotiated k hk ht
  · intro x hx
    obtain ⟨k, hk, rfl⟩ := Option.map_eq_some_iff.mp hx
    exact h.ours k hk
  · intro hr x hx
    obtain ⟨k, hk, rfl⟩ := Option.map_eq_some_iff.mp hx
    exact h.ephemeral hr k hk

/-- In an exchange the derived keys are AEAD keys. -/
theorem exchangeKeys_aead (h : KexOk c.control) {x : Exchange} (hx : c.InExchange x)
    (hash sid : Bytes) (shared : Block 32) :
    (c.exchangeKeys x hash sid shared).send.kind.isAead = true ∧
      (c.exchangeKeys x hash sid shared).recv.kind.isAead = true := by
  obtain ⟨⟨a, ha, haead⟩, b, hb, hbead⟩ := h.negotiated x.kex hx.kex (by rw [hx.theirs]; rfl)
  cases hx.c2s.symm.trans ha
  cases hx.s2c.symm.trans hb
  unfold exchangeKeys
  cases c.role with
  | server => exact ⟨by rw [(makeKeys_apply _ _ _ _ _ _).1]; exact hbead,
      by rw [(makeKeys_apply _ _ _ _ _ _).1]; exact haead⟩
  | client => exact ⟨by rw [(makeKeys_apply _ _ _ _ _ _).1]; exact haead,
      by rw [(makeKeys_apply _ _ _ _ _ _).1]; exact hbead⟩

omit [CryptoLib] in
/-- Our side switches its key right after `finish_kex`: the two together keep
    the invariant, which the state in between does not satisfy. -/
theorem switch (h : KexOk c.control) {k : KexState} {pk : PendingKeys} (hk : c.kex = some k)
    (hsend : pk.send.kind.isAead = true) (hrecv : pk.recv.kind.isAead = true)
    {sid lastH : Option Bytes} {c1 : Connection}
    (hc1 : c1.control
      = ({ c with sessionId := sid, lastH := lastH, pendingKeys := some pk } : Connection).control) :
    KexOk (c1.installSend pk).control := by
  have hf : ∀ {α : Type} (f : Control → α), f c1.control = f ({ c with
      sessionId := sid, lastH := lastH, pendingKeys := some pk } : Connection).control :=
    fun f => congrArg f hc1
  have hkex : c1.kex = some k := (hf (·.conn.kex)).trans hk
  refine ⟨?_, ?_, ?_, ?_, ?_, ?_, ?_, ?_, ?_, ?_, ?_⟩
  · intro hi
    exact (hf (·.conn.identPeer.isSome)).trans (h.identPeer ((hf (·.conn.identInDone)).symm.trans hi))
  · intro hr
    exact (hf (·.conn.server.isSome)).trans (h.server ((hf (·.conn.role)).symm.trans hr))
  · intro hr
    exact (hf (·.conn.client.isSome)).trans (h.client ((hf (·.conn.role)).symm.trans hr))
  · exact (hf (·.conn.sentKexinit)).trans (h.kexinit.trans (hf (·.conn.kex.isSome)).symm)
  · intro pk' hpk
    cases hpk
    exact ⟨by rw [show (c1.installSend pk).control.conn.kex = some k from hkex]; rfl, rfl, hrecv⟩
  · intro _
    exact (hf (·.conn.recvNewkeys)).trans
      (h.unfinished (by rw [show c.control.conn.kex = some k from hk]; rfl))
  · intro _ _
    exact hsend
  · intro x hx ht
    exact h.negotiated x ((hf (·.conn.kex)).symm.trans hx) ht
  · intro x hx
    obtain ⟨cookie, hours⟩ := h.ours x ((hf (·.conn.kex)).symm.trans hx)
    exact ⟨cookie, hours.trans (congrArg (KexInit.build cookie · serverHostKey serverCiphers
      serverMacs) (hf (·.conn.kexNames)).symm)⟩
  · intro hr x hx
    exact h.ephemeral ((hf (·.conn.role)).symm.trans hr) x ((hf (·.conn.kex)).symm.trans hx)
  · intro hfirst
    exact ⟨hsend, (congrArg CipherKind.isAead (hf (·.recvKind))).trans
      (h.encrypted ((hf (·.conn.firstKexDone)).symm.trans hfirst)).2⟩

omit [CryptoLib] in
/-- The peer's NEWKEYS completes the exchange. -/
theorem complete (h : KexOk c.control) {pk : PendingKeys} (hpk : c.pendingKeys = some pk)
    (blocks : Bool) : KexOk ({ (c.installRecv pk).completed with
      firstKexDone := true, kexBlocksApp := blocks } : Connection).control := by
  obtain ⟨hk, hs, ha⟩ := h.pending pk hpk
  refine ⟨h.identPeer, h.server, h.client, rfl, ?_, ?_, ?_, ?_, ?_, ?_, ?_⟩
  · intro pk' hpk'
    cases hpk'
  · intro hkex
    cases hkex
  · intro hkex
    cases hkex
  · intro x hx
    cases hx
  · intro x hx
    cases hx
  · intro _ x hx
    cases hx
  · intro _
    exact ⟨h.switched hk hs, ha⟩

omit [CryptoLib] in
theorem login (h : KexOk c.control) (user : String) : KexOk (c.login user).control :=
  ⟨h.identPeer, h.server, h.client, h.kexinit, h.pending, h.unfinished, h.switched, h.negotiated,
    h.ours, h.ephemeral, h.encrypted⟩

omit [CryptoLib] in
theorem closed (h : KexOk c.control) : KexOk ({ c with closed := true } : Connection).control :=
  ⟨h.identPeer, h.server, h.client, h.kexinit, h.pending, h.unfinished, h.switched, h.negotiated,
    h.ours, h.ephemeral, h.encrypted⟩

omit [CryptoLib] in
theorem authFailed (h : KexOk c.control) (n : UInt32) :
    KexOk ({ c with authFails := n } : Connection).control :=
  ⟨h.identPeer, h.server, h.client, h.kexinit, h.pending, h.unfinished, h.switched, h.negotiated,
    h.ours, h.ephemeral, h.encrypted⟩

omit [CryptoLib] in
theorem identDone (h : KexOk c.control) (s : String) (rest : Bytes) :
    KexOk ({ c with identAcc := [], readBuf := rest, identPeer := some s, identInDone := true } :
      Connection).control :=
  ⟨fun _ => rfl, h.server, h.client, h.kexinit, h.pending, h.unfinished, h.switched, h.negotiated,
    h.ours, h.ephemeral, h.encrypted⟩

end KexOk

-- ============================================================================
-- Moves keep the invariants
-- ============================================================================

variable {c c' c1 c2 : Conn} {p : Bytes} {k : Cause}

omit [CryptoLib] in
/-- `pull_current_out` moves bytes between the output buffers only. -/
theorem Connection.pullCurrentOut_eq (c : Connection) : ∃ ident out isIdent q,
    c.pullCurrentOut = { c with
      identOut := ident, currentOut := out, currentIsIdent := isIdent, writeQ := q } := by
  have hpull : ∀ c : Connection, ∃ out isIdent q, c.pullPacket = { c with
      currentOut := out, currentIsIdent := isIdent, writeQ := q } := by
    intro c
    unfold pullPacket
    split
    · exact ⟨_, _, _, rfl⟩
    · exact ⟨c.currentOut, _, c.writeQ, rfl⟩
  unfold pullCurrentOut
  dsimp only
  generalize hc0 : (if c.currentOut = some [] then
    { c with currentOut := none, currentIsIdent := false } else c) = c0
  have h0 : ∃ out isIdent, c0 = { c with currentOut := out, currentIsIdent := isIdent } := by
    rw [← hc0]
    split
    · exact ⟨_, _, rfl⟩
    · exact ⟨c.currentOut, c.currentIsIdent, rfl⟩
  obtain ⟨out, isIdent, rfl⟩ := h0
  split
  · exact ⟨c.identOut, _, _, c.writeQ, rfl⟩
  · split
    · exact ⟨_, _, _, c.writeQ, rfl⟩
    · obtain ⟨o, i, q, h⟩ := hpull { c with
        identOut := none, currentOut := out, currentIsIdent := isIdent }
      exact ⟨_, o, i, q, h⟩
    · obtain ⟨o, i, q, h⟩ := hpull { c with currentOut := out, currentIsIdent := isIdent }
      exact ⟨_, o, i, q, h⟩

omit [CryptoLib] in
/-- `consume_out` changes the current packet and the backlog counter only. -/
theorem Connection.drained_eq (c : Connection) (b : Bytes) (n : Nat) : ∃ out isIdent bytes,
    c.drained b n
      = { c with currentOut := out, currentIsIdent := isIdent, writeBytes := bytes } := by
  unfold drained
  dsimp only
  split
  · split
    · exact ⟨_, _, _, rfl⟩
    · exact ⟨_, c.currentIsIdent, _, rfl⟩
  · split
    · exact ⟨_, _, c.writeBytes, rfl⟩
    · exact ⟨_, c.currentIsIdent, c.writeBytes, rfl⟩

omit [CryptoLib] in
/-- Both together: what the socket takes changes the output buffers and the
    backlog counter only. -/
theorem Connection.pullDrained_eq (c : Connection) (b : Bytes) (n : Nat) :
    ∃ ident out isIdent q bytes, c.pullCurrentOut.drained b n = { c with
      identOut := ident, currentOut := out, currentIsIdent := isIdent, writeQ := q,
      writeBytes := bytes } := by
  obtain ⟨ident, out, isIdent, q, hpull⟩ := c.pullCurrentOut_eq
  obtain ⟨out', isIdent', bytes, hdrain⟩ := c.pullCurrentOut.drained_eq b n
  refine ⟨ident, out', isIdent', q, bytes, ?_⟩
  rw [hdrain, hpull]

theorem SendsData.table {id : UInt32} {chunks : List Bytes} (h : SendsData id c chunks c')
    (ht : TableOk c.now.channels) : TableOk c'.now.channels := by
  induction h with
  | done c => exact ht
  | defer hch hne hallow hgate htail ih => exact ih (ht.set _ _)
  | wire hch hne hallow hgate hr hq htail ih =>
    refine ih ?_
    rw [hq.channels]
    exact ht.set _ _

omit [CryptoLib] in
theorem Allocates.table {ch : Channel} {id : UInt32} (h : Allocates ch c id c')
    (ht : TableOk c.now.channels) : TableOk c'.now.channels := by
  cases h with
  | mk halloc => exact ((ChannelTable.alloc_sat ht ch).of_ok halloc).table

omit [CryptoLib] in
theorem Allocates.control {ch : Channel} {id : UInt32} (h : Allocates ch c id c') :
    c'.now.control = c.now.control := by
  cases h
  rfl

theorem Starts.kexOk (h : Starts c c') (hnone : c.now.kex = none) (hk : KexOk c.now.control) :
    KexOk c'.now.control := by
  cases h with
  | mk hq =>
    rename_i c1
    have hctl := hq.control
    have hk1 : KexOk c1.now.control := by
      rw [hctl]
      exact hk
    have hnone1 : c1.now.kex = none := (congrArg (·.conn.kex) hctl).trans hnone
    have hnames : c.now.kexNames = c1.now.kexNames := (congrArg (·.conn.kexNames) hctl).symm
    rw [ownKexInit, hnames]
    exact hk1.started _ hnone1

theorem Starts.channels (h : Starts c c') : c'.now.channels = c.now.channels := by
  cases h with
  | mk hq => exact hq.channels

theorem HangsUp.kexOk {reason : UInt32} {msg : String} (h : HangsUp reason msg c c')
    (hk : KexOk c.now.control) : KexOk c'.now.control := by
  cases h with
  | again hc => exact hk
  | first hc hs =>
    rw [← hs.control] at hk
    exact hk.closed

theorem HangsUp.channels {reason : UInt32} {msg : String} (h : HangsUp reason msg c c') :
    c'.now.channels = c.now.channels := by
  cases h with
  | again hc => rfl
  | first hc hs => exact hs.channels

/-- Steps other than the start of an exchange and the end of the connection
    keep the control part. -/
theorem Step.control (h : Step k c c') : c'.now.control = c.now.control
    ∨ (c.now.kex = none ∧ Starts c c') ∨ ∃ reason msg, HangsUp reason msg c c' := by
  cases h with
  | pull =>
    obtain ⟨_, _, _, _, h⟩ := c.now.pullCurrentOut_eq
    rw [h]
    exact .inl rfl
  | @drain _ b m hb hm =>
    obtain ⟨_, _, _, _, _, h⟩ := c.now.pullDrained_eq b (min m b.length)
    rw [h]
    exact .inl rfl
  | startKex hk hs h => exact .inr (.inl ⟨hk, h⟩)
  | hangUp h => exact .inr (.inr ⟨_, _, h⟩)
  | draw h => exact .inl h.control
  | grant hgate hch hadd hpos hr hq => exact .inl hq.control
  | sendData h hn hdata => exact .inl h.control
  | sendLost h hch hgate hr hsoft hhard => exact .inl h.control
  | flush hch hcan hp hne hq => exact .inl hq.control
  | emitEof hgate hch he hw hr hq => exact .inl hq.control
  | emitClose hgate hch hc hw hr hq => exact .inl hq.control
  | closeNow hgate hch hc hw hr hq => exact .inl hq.control
  | confirm hch hr hq => exact .inl hq.control
  | failOpen hch hr hs => exact .inl hs.control
  | openLocal hrole hauth ha hs => exact .inl (hs.control.trans ha.control)
  | _ => exact .inl rfl

theorem Step.table (h : Step k c c') (ht : TableOk c.now.channels) : TableOk c'.now.channels := by
  cases h with
  | pull =>
    obtain ⟨_, _, _, _, h⟩ := c.now.pullCurrentOut_eq
    rw [h]
    exact ht
  | startKex hk hs h => rw [h.channels]; exact ht
  | hangUp h => rw [h.channels]; exact ht
  | draw h => rw [h.channels]; exact ht
  | grant hgate hch hadd hpos hr hq => rw [hq.channels]; exact ht.set _ _
  | sendData h hn hdata => exact h.table ht
  | sendLost h hch hgate hr hsoft hhard => exact (h.table ht).set _ _
  | flush hch hcan hp hne hq => rw [hq.channels]; exact ht.set _ _
  | emitEof hgate hch he hw hr hq => rw [hq.channels]; exact ht.set _ _
  | emitClose hgate hch hc hw hr hq => rw [hq.channels]; exact ht.set _ _
  | closeNow hgate hch hc hw hr hq => rw [hq.channels]; exact ht.set _ _
  | confirm hch hr hq => rw [hq.channels]; exact ht.set _ _
  | failOpen hch hr hs => rw [hs.channels]; exact ht.release _
  | openLocal hrole hauth ha hs => rw [hs.channels]; exact ha.table ht
  | consume hch hq => exact ht.set _ _
  | grantSilent hgate hch hadd hpos hr => exact ht.set _ _
  | flushLost hch hcan hp hne hhard => exact ht.set _ _
  | askEof hch he hc => exact ht.set _ _
  | askClose hgate hch hc => exact ht.set _ _
  | closeAgain hch hc hw => exact ht.set _ _
  | closeSilent hgate hch hc hw hr => exact ht.set _ _
  | emitEofSilent hgate hch he hw hr => exact ht.set _ _
  | emitCloseSilent hgate hch hc hw hr => exact ht.set _ _
  | freeClosed hch hg hw => exact ht.release _
  | confirmSilent hch hr => exact ht.set _ _
  | @drain _ b m hb hm =>
    obtain ⟨_, _, _, _, _, h⟩ := c.now.pullDrained_eq b (min m b.length)
    rw [h]
    exact ht
  | popEvent => exact ht
  | roundRobin => exact ht
  | tick => exact ht
  | closeEvent => exact ht

theorem Step.wellFormed (h : Step k c c') (hwf : WellFormed c) : WellFormed c' := by
  refine ⟨?_, h.table hwf.table⟩
  rcases h.control with hc | ⟨hnone, hs⟩ | ⟨reason, msg, hh⟩
  · rw [hc]
    exact hwf.kex
  · exact hs.kexOk hnone hwf.kex
  · exact hh.kexOk hwf.kex

theorem Receives.wellFormed (h : Receives p c c1) (hwf : WellFormed c) : WellFormed c1 := by
  refine ⟨?_, ?_⟩
  · rw [h.control]
    exact hwf.kex
  · rw [h.channels]
    exact hwf.table

theorem Queues.wellFormed {owner : Option UInt32} {payload : Bytes}
    (h : Queues owner payload c c') (hwf : WellFormed c) : WellFormed c' := by
  refine ⟨?_, ?_⟩
  · rw [h.control]
    exact hwf.kex
  · rw [h.channels]
    exact hwf.table

theorem Joins.wellFormed (h : Joins c c') (hwf : WellFormed c) : WellFormed c' := by
  cases h with
  | running hk => exact hwf
  | started hk hs =>
    refine ⟨hs.kexOk hk hwf.kex, ?_⟩
    rw [hs.channels]
    exact hwf.table

theorem HangsUp.wellFormed {reason : UInt32} {msg : String} (h : HangsUp reason msg c c')
    (hwf : WellFormed c) : WellFormed c' := by
  refine ⟨h.kexOk hwf.kex, ?_⟩
  rw [h.channels]
  exact hwf.table

theorem Denies.wellFormed {cfg : ServerConfig} (h : Denies cfg c c') (hwf : WellFormed c) :
    WellFormed c' := by
  cases h with
  | soft hlt hq => exact hq.wellFormed hwf
  | hard hge hh => exact hh.wellFormed hwf

theorem Greets.wellFormed (h : Greets c c') (hwf : WellFormed c) : WellFormed c' := by
  cases h with
  | silent hr he => exact hwf
  | extInfo hr he hq => exact hq.wellFormed hwf
  | service hr hq => exact hq.wellFormed hwf

/-- Our NEWKEYS right after `finish_kex`. -/
theorem Switches.kexOk {pk : PendingKeys} {c0 : Connection} {x : Exchange} {k : KexState}
    {ks : Bytes} {qC qS shared : Block 32} (h : Switches pk c c') (hk0 : KexOk c0.control)
    (hk : c0.kex = some k)
    (haead : ∀ hash sid, (c0.exchangeKeys x hash sid shared).send.kind.isAead = true ∧
      (c0.exchangeKeys x hash sid shared).recv.kind.isAead = true)
    (hc : c.now.control = (c0.finished x ks qC qS shared).control) : KexOk c'.now.control := by
  cases h with
  | mk hpk hq =>
    have hpending : c.now.pendingKeys = some (c0.exchangeKeys x (c0.exchangeHash x ks qC qS shared)
        (c0.sessionId.getD (c0.exchangeHash x ks qC qS shared)) shared) :=
      congrArg (·.conn.pendingKeys) hc
    cases hpk.symm.trans hpending
    exact hk0.switch hk (haead _ _).1 (haead _ _).2 (hq.control.trans hc)

theorem Handles.wellFormed (h : Handles p c c') (hwf : WellFormed c) : WellFormed c' := by
  cases h with
  | skip hr h => exact hr.wellFormed hwf
  | answer hr h hq => exact hq.wellFormed (hr.wellFormed hwf)
  | kexinitServer hr hm hrole hp hj hk hn =>
    have hwf2 := hj.wellFormed (hr.wellFormed hwf)
    exact ⟨hwf2.kex.recorded hk hn, hwf2.table⟩
  | kexinitClient hr hm hrole hp hj hk hn hpub hq =>
    have hwf2 := hj.wellFormed (hr.wellFormed hwf)
    exact hq.wellFormed ⟨hwf2.kex.recorded hk hn, hwf2.table⟩
  | @ecdhInit c1 c2 c' x cfg qC hr hrole hm hcfg hx hz hq pk hs =>
    have hwf1 := hr.wellFormed hwf
    have hk := hwf1.kex
    have hk0 : KexOk ({ c1.now with
        rng := c1.now.rng.skip 32, peerKs := some cfg.hostKey.publicBlob } : Connection).control :=
      ⟨hk.identPeer, hk.server, hk.client, hk.kexinit, hk.pending, hk.unfinished, hk.switched,
        hk.negotiated, hk.ours, hk.ephemeral, hk.encrypted⟩
    refine ⟨hs.kexOk hk0 hx.kex (fun _ _ => hk.exchangeKeys_aead hx _ _ _) hq.control, ?_⟩
    cases hs with
    | mk hpk hq' =>
      refine TableOk.mk ?_ ?_
      all_goals
        simp only [installSend, hq'.channels, hq.channels]
      · exact hwf1.table.free
      · exact hwf1.table.bound
  | @ecdhReply c1 c' x ks sig qS pub secret hr hrole hm hpub hsec hx hks hsig hz pk hs =>
    have hwf1 := hr.wellFormed hwf
    have hk0 := hwf1.kex.secretSpent (some ks)
    rw [hx.kex] at hk0
    refine ⟨hs.kexOk hk0 rfl (fun _ _ => hwf1.kex.exchangeKeys_aead hx _ _ _) rfl, ?_⟩
    cases hs with
    | mk hpk hq' =>
      refine TableOk.mk ?_ ?_
      all_goals
        simp only [installSend, hq'.channels]
      · exact hwf1.table.free
      · exact hwf1.table.bound
  | newkeysFirst hr hm hpk hf hg =>
    have hwf1 := hr.wellFormed hwf
    exact hg.wellFormed ⟨hwf1.kex.complete hpk _, hwf1.table⟩
  | @newkeysAgain c1 pk hr hm hpk hf =>
    have hwf1 := hr.wellFormed hwf
    have hk := hwf1.kex.complete hpk false
    rw [← hf] at hk
    exact ⟨hk, hwf1.table⟩
  | userauthSuccess hr hm => exact ⟨(hr.wellFormed hwf).kex.login _, (hr.wellFormed hwf).table⟩
  | authAccept hr hrole hcfg hm hok hq =>
    have hwf1 := hr.wellFormed hwf
    have hwf2 := hq.wellFormed ⟨hwf1.kex.login _, hwf1.table⟩
    exact ⟨hwf2.kex, hwf2.table⟩
  | authReject hr hrole hcfg hm hbad hd =>
    have hwf1 := hr.wellFormed hwf
    exact hd.wellFormed ⟨hwf1.kex.authFailed _, hwf1.table⟩
  | authOther hr hrole hcfg hm hd => exact hd.wellFormed (hr.wellFormed hwf)
  | disconnect hr hm => exact ⟨(hr.wellFormed hwf).kex.closed, (hr.wellFormed hwf).table⟩
  | openSession hr hm hauth ha =>
    have hwf1 := hr.wellFormed hwf
    exact ⟨ha.control ▸ hwf1.kex, ha.table hwf1.table⟩
  | openDirect hr hm hauth ha =>
    have hwf1 := hr.wellFormed hwf
    exact ⟨ha.control ▸ hwf1.kex, ha.table hwf1.table⟩
  | openConfirm hr hm hch => exact ⟨(hr.wellFormed hwf).kex, (hr.wellFormed hwf).table.set _ _⟩
  | openFail hr hm => exact ⟨(hr.wellFormed hwf).kex, (hr.wellFormed hwf).table.release _⟩
  | windowAdjust hr hm hch => exact ⟨(hr.wellFormed hwf).kex, (hr.wellFormed hwf).table.set _ _⟩
  | deliver hr hm hch hw => exact ⟨(hr.wellFormed hwf).kex, (hr.wellFormed hwf).table.set _ _⟩
  | peerEof hr hm hch => exact ⟨(hr.wellFormed hwf).kex, (hr.wellFormed hwf).table.set _ _⟩
  | peerEofUnknown hr hm hch => exact ⟨(hr.wellFormed hwf).kex, (hr.wellFormed hwf).table⟩
  | peerClose hr hm hch => exact ⟨(hr.wellFormed hwf).kex, (hr.wellFormed hwf).table.set _ _⟩

theorem Quiet.wellFormed (h : Quiet c c') (hwf : WellFormed c) : WellFormed c' := by
  cases h with
  | step h => exact h.wellFormed hwf
  | handle h => exact h.wellFormed hwf
  | identWait h hno => exact ⟨hwf.kex, hwf.table⟩
  | identDone h hs => exact ⟨hwf.kex.identDone _ _, hwf.table⟩

theorem Faults.wellFormed (h : Faults c c') (hwf : WellFormed c) : WellFormed c' := by
  cases h with
  | reject h => exact h.wellFormed hwf
  | spoil h hm => exact ⟨(h.wellFormed hwf).kex.secretSpent _, (h.wellFormed hwf).table⟩
  | drop hkind =>
    refine ⟨?_, hwf.table⟩
    simp only [Connection.control, hkind]
    exact hwf.kex
  | identBad h => exact ⟨hwf.kex, hwf.table⟩

theorem Move.wellFormed (h : Move c c') (hwf : WellFormed c) : WellFormed c' := by
  cases h with
  | quiet h => exact h.wellFormed hwf
  | fault h => exact h.wellFormed hwf
  | recv bytes => exact ⟨hwf.kex, hwf.table⟩
  | own h => exact h.wellFormed hwf

end Ssproxy
