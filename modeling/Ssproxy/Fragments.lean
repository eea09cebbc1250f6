/-
  Ssproxy.Fragments

  The receive path does not depend on how the bytes are cut.  `receive` is
  `process_in` on some more bytes, without the two hooks after the packet loop
  and with any handler in the place of `handle_payload`; a handler does not see
  the bytes that are still in `read_buf`.  Receiving `a` and then `b` is
  receiving `a ++ b`.  With the handlers of a connection, `receive` and the
  hooks are `process_in`.
-/

import Ssproxy.Laws
import Ssproxy.Unread

namespace Ssproxy

open Lib Wire Connection

open Traced (read update observe)

-- ============================================================================
-- The receive path over any handler
-- ============================================================================

/-- What runs above the packet layer: `onIdent` once the peer's ident line is
    in, and `onPayload` for each payload. -/
structure Upper where
  onIdent : ConnM Unit
  onPayload : Bytes → ConnM Unit
  blindIdent : Blind onIdent
  blindPayload : ∀ p, Blind (onPayload p)

namespace Connection

variable [CryptoLib]

/-- `try_one_packet` with `handle` for `handle_payload`. -/
def tryOnePacketWith (handle : Bytes → ConnM Unit) : ConnM Bool := do
  let before ← read
  let payload ← takePacket
  match payload with
  | none => return false
  | some payload => do
      let msg ← Proc.index payload 0
      let c ← read
      strictFilter c msg
      if msg = MsgType.newkeys.code ∧ c.strictKex then
        update fun c => { c with recvSeq := 0 }
      else pure ()
      observe (.handled before payload)
      handle payload
      return true

theorem tryOnePacket_eq : tryOnePacket = tryOnePacketWith handlePayload := rfl

/-- The packet loop. -/
def packetsWith (handle : Bytes → ConnM Unit) : ConnM Unit := do
  let c ← read
  Proc.loop (tryOnePacketWith handle) (c.readBuf.length + 1)

/-- `bytes` arrive in `read_buf`, and `process_in` runs up to its hooks. -/
def receive (u : Upper) (bytes : Bytes) : ConnM Unit := do
  update fun c => { c with readBuf := c.readBuf ++ bytes }
  let c ← read
  if !c.identInDone then do
    tryIdent
    let c ← read
    if c.identInDone then do
      u.onIdent
      packetsWith u.onPayload
    else return ()
  else packetsWith u.onPayload

end Connection

variable [CryptoLib]

variable {u : Upper} {a b : Bytes} {c c' c1 : Conn}

-- ============================================================================
-- One packet
-- ============================================================================

/-- `c'` is `c` with `b` still behind what `c` has in `read_buf`. -/
def Ahead (b : Bytes) (c c' : Conn) : Prop := ∃ r, Abreast r (r ++ b) c c'

/-- The same connection, the same payloads handled. -/
def Same (c c' : Conn) : Prop := c'.now = c.now ∧ payloads c'.log = payloads c.log

theorem takePacket_of_lacks (h : c.now.Lacks) : takePacket c = .ok none c := by
  unfold takePacket
  simp only [Proc.bind_apply, Traced.read_apply, Outcome.bind_ok, Proc.ite_apply]
  by_cases hfour : c.now.readBuf.length < 4
  · rw [if_pos hfour]
    rfl
  rw [if_neg hfour, Proc.slice_of_le (Nat.zero_le 4) (Nat.le_of_not_lt hfour)]
  obtain h | ⟨len, hlen, hrange, hshort⟩ := h
  · exact absurd h hfour
  simp only [Outcome.bind_ok, Nat.sub_zero, List.drop_zero]
  rw [Proc.bind_of_ok (hlen c), Proc.bind_apply, Proc.failIf_apply, if_neg hrange,
    Outcome.bind_ok, Proc.ite_apply, if_pos hshort]
  rfl

/-- `try_one_packet` up to the payload: it opens the packet at the front, and
    what is behind it stays where it is. -/
theorem takePacket_ahead (h : Ahead b c c') :
    c.now.Lacks ∨ (takePacket c).Agree (Ahead b) (takePacket c') := by
  obtain ⟨r, h⟩ := h
  by_cases hlacks : c.now.Lacks
  · exact .inl hlacks
  refine .inr ?_
  have hfour : 4 ≤ c.now.readBuf.length := Nat.le_of_not_lt fun hlt => hlacks (.inl hlt)
  have hbuf' : c'.now.readBuf = c.now.readBuf ++ b := by rw [h.now, h.buf]
  have hfour' : 4 ≤ c'.now.readBuf.length := by
    rw [hbuf', List.length_append]
    omega
  have hcipher : c'.now.recvCipher = c.now.recvCipher := by rw [h.now]
  have hseq : c'.now.recvSeq = c.now.recvSeq := by rw [h.now]
  have htake : c'.now.readBuf.take 4 = c.now.readBuf.take 4 := by
    rw [hbuf', List.take_append_of_le_length hfour]
  unfold takePacket
  simp only [Proc.bind_apply, Traced.read_apply, Outcome.bind_ok, Proc.ite_apply]
  rw [if_neg (Nat.not_lt.mpr hfour), if_neg (Nat.not_lt.mpr hfour'),
    Proc.slice_of_le (Nat.zero_le 4) hfour, Proc.slice_of_le (Nat.zero_le 4) hfour']
  simp only [Outcome.bind_ok, Nat.sub_zero, List.drop_zero]
  rw [htake, hcipher, hseq]
  have hplain : (c.now.recvCipher.decryptLength c.now.recvSeq (c.now.readBuf.take 4)).length = 4 := by
    rw [DirectionKeys.length_decryptLength, List.length_take, Nat.min_eq_left hfour]
  obtain ⟨len, hlen⟩ := beU32_of_length hplain
  rw [Proc.bind_of_ok (hlen c), Proc.bind_of_ok (hlen c'), Proc.bind_apply, Proc.bind_apply,
    Proc.failIf_apply, Proc.failIf_apply]
  by_cases hrange : len < 4 ∨ len.toNat > Ssproxy.maxPacket
  · rw [if_pos hrange, if_pos hrange]
    refine ⟨?_, r, h⟩
    simp only [badLength, hcipher, hseq]
  have htotal : 4 + len.toNat + c.now.recvCipher.kind.tagLen ≤ c.now.readBuf.length :=
    Nat.le_of_not_lt fun hlt => hlacks (.inr ⟨len, hlen, hrange, hlt⟩)
  have htotal' : 4 + len.toNat + c.now.recvCipher.kind.tagLen ≤ c'.now.readBuf.length := by
    rw [hbuf', List.length_append]
    omega
  rw [if_neg hrange, if_neg hrange]
  simp only [Outcome.bind_ok, Proc.ite_apply]
  rw [if_neg (Nat.not_lt.mpr htotal), if_neg (Nat.not_lt.mpr htotal'),
    Proc.bind_of_ok (Proc.splitAt_of_le htotal c), Proc.bind_of_ok (Proc.splitAt_of_le htotal' c'),
    hbuf', List.take_append_of_le_length htotal, List.drop_append_of_le_length htotal]
  generalize c.now.recvCipher.decryptLength c.now.recvSeq (c.now.readBuf.take 4) = plainLen
  generalize c.now.readBuf.take (4 + len.toNat + c.now.recvCipher.kind.tagLen) = pkt
  generalize c.now.readBuf.drop (4 + len.toNat + c.now.recvCipher.kind.tagLen) = rest
  generalize 4 + len.toNat + c.now.recvCipher.kind.tagLen = total
  have hrest : Abreast rest (rest ++ b) ⟨{ c.now with readBuf := rest }, c.log⟩
      ⟨{ c'.now with readBuf := rest ++ b }, c'.log⟩ := by
    refine ⟨rfl, h.ready, ?_, h.handled⟩
    rw [h.now]
  refine Outcome.Agree.mono (S := Abreast rest (rest ++ b)) ?_ fun _ _ h => ⟨_, h⟩
  -- from here on both run the same procedure
  refine Proc.Respects.bind (Proc.static_splitAt _ _).respects (fun q => ?_) _ _ hrest
  refine (Proc.static_ofExcept _).respects.bind fun opened => ?_
  refine Proc.Respects.bind (Spares.respects ?_) fun _ => ?_
  · exact fun _ _ => ⟨rfl, rfl, rfl⟩
  refine (Proc.static_copyInto _ _ _).respects.bind fun body => ?_
  refine (Proc.static_index _ _).respects.bind fun pad => ?_
  refine (Proc.static_failIf _).respects.bind fun _ => ?_
  refine (Proc.static_failIf _).respects.bind fun _ => ?_
  refine (Proc.static_checkedSub _ _).respects.bind fun payloadEnd => ?_
  refine (Proc.static_splitAt _ _).respects.bind fun payload => ?_
  refine (Proc.static_checkedSub _ _).respects.bind fun n => ?_
  refine (Proc.static_failIf _).respects.bind fun _ => ?_
  refine Proc.Respects.bind (Spares.respects ?_) fun _ => ?_
  · exact fun _ _ => ⟨rfl, rfl, rfl⟩
  exact (Proc.static_pure _).respects

omit [CryptoLib] in
theorem static_strictFilter (k : Connection) (msg : UInt8) : Proc.Static (strictFilter k msg) := by
  unfold strictFilter
  refine Proc.static_ite ?_ (Proc.static_pure ())
  exact (Proc.static_failIf _).bind fun _ => Proc.static_failIf _

variable {handle : Bytes → ConnM Unit}

/-- One round of the packet loop, with and without `b` behind it. -/
theorem tryOnePacketWith_ahead (hu : ∀ p, Blind (handle p)) (h : Ahead b c c') :
    c.now.Lacks ∨ (tryOnePacketWith handle c).Agree (Ahead b) (tryOnePacketWith handle c') := by
  refine (takePacket_ahead h).imp id fun htake => ?_
  unfold tryOnePacketWith
  rw [Proc.bind_of_ok (Traced.read_apply c), Proc.bind_of_ok (Traced.read_apply c')]
  refine htake.bind (fun payload c1 c1' h1 => ?_) fun _ _ h => h
  cases payload with
  | none => exact ⟨rfl, h1⟩
  | some p =>
    obtain ⟨r, h1⟩ := h1
    refine Outcome.Agree.mono (S := Abreast r (r ++ b)) ?_ fun _ _ h => ⟨_, h⟩
    refine Proc.Respects.bind (Proc.static_index _ _).respects (fun msg => ?_) _ _ h1
    intro c2 c2' h2
    have hstrict : strictFilter c2'.now msg = strictFilter c2.now msg := by
      rw [h2.now]
      rfl
    have hkex : c2'.now.strictKex = c2.now.strictKex := by rw [h2.now]
    rw [Proc.bind_of_ok (Traced.read_apply c2), Proc.bind_of_ok (Traced.read_apply c2'), hstrict,
      hkex]
    refine Proc.Respects.bind (static_strictFilter _ _).respects (fun _ => ?_) _ _ h2
    have htail : Proc.Respects (Abreast r (r ++ b))
        (do observe (.handled c.now p); handle p; return true : ConnM Bool)
        (do observe (.handled c'.now p); handle p; return true) := by
      refine Proc.Respects.bind (unread_observe rfl) fun _ => ?_
      exact (hu p _ _).bind fun _ => (Proc.static_pure true).respects
    dsimp only
    split
    · refine Proc.Respects.bind (Spares.respects ?_) fun _ => htail
      exact fun _ _ => ⟨rfl, rfl, rfl⟩
    · exact htail

omit [CryptoLib] in
/-- A handler leaves `read_buf` alone. -/
theorem Blind.keeps {m : ConnM Unit} (hm : Blind m) (hid : c.now.identInDone = true)
    (h : m c = .ok () c') :
    c'.now.readBuf = c.now.readBuf ∧ c'.now.identInDone = true := by
  have hself : Abreast c.now.readBuf c.now.readBuf c c := ⟨rfl, hid, rfl, rfl⟩
  obtain ⟨c2, -, h2⟩ := (hm _ _ c c hself).of_ok h
  exact ⟨h2.buf, h2.ready⟩

/-- A round that goes on has taken a packet; the last one had none to take. -/
theorem tryOnePacketWith_ok {again : Bool} (hu : ∀ p, Blind (handle p))
    (hid : c.now.identInDone = true) (h : tryOnePacketWith handle c = .ok again c') :
    (again = false ∧ c' = c ∧ c.now.Lacks) ∨ (again = true ∧
      c'.now.identInDone = true ∧ c'.now.readBuf.length < c.now.readBuf.length) := by
  unfold tryOnePacketWith at h
  rw [Proc.bind_of_ok (Traced.read_apply c), Proc.bind_apply] at h
  obtain ⟨payload, c1, htake, h⟩ := Outcome.of_bind_eq_ok h
  rcases (takePacket_sat c).of_ok htake with ⟨rfl, rfl, hlacks⟩ | ⟨p, cipher, rest, total, rfl, hopen, rfl⟩
  · cases h
    exact .inl ⟨rfl, rfl, hlacks⟩
  refine .inr ?_
  obtain ⟨msg, c2, hmsg, h⟩ := Outcome.of_bind_eq_ok h
  obtain rfl := (Proc.static_index _ _).state_eq hmsg
  rw [Proc.bind_of_ok (Traced.read_apply _)] at h
  obtain ⟨_, c3, hfilter, h⟩ := Outcome.of_bind_eq_ok h
  obtain rfl := (static_strictFilter _ _).state_eq hfilter
  have hlen : rest.length < c.now.readBuf.length := by
    rw [hopen.size]
    have := hopen.min
    omega
  have htail : ∀ c4 : Conn, c4.now.readBuf = rest → c4.now.identInDone = true →
      (do observe (.handled c.now p); handle p; return true : ConnM Bool) c4 = .ok again c' →
      again = true ∧ c'.now.identInDone = true ∧
        c'.now.readBuf.length < c.now.readBuf.length := by
    intro c4 hbuf hid4 h
    rw [Proc.bind_of_ok (Traced.observe_apply _ _)] at h
    obtain ⟨_, c5, hhandle, h⟩ := Outcome.of_bind_eq_ok h
    cases h
    obtain ⟨hbuf5, hid5⟩ := (hu p).keeps (c := ⟨c4.now, c4.log ++ [.handled c.now p]⟩) hid4
      hhandle
    refine ⟨rfl, hid5, ?_⟩
    rw [hbuf5, hbuf]
    exact hlen
  dsimp only at h
  split at h
  · exact htail ⟨{ c.now.received cipher rest total with recvSeq := 0 }, c.log⟩ rfl hid h
  · exact htail ⟨c.now.received cipher rest total, c.log⟩ rfl hid h

/-- The loop does not notice how much fuel it has. -/
theorem packetsWith_unfold (hu : ∀ p, Blind (handle p)) (hid : c.now.identInDone = true) :
    packetsWith handle c = (tryOnePacketWith handle c).bind fun again c' =>
      if again then packetsWith handle c' else .ok () c' := by
  have hμ : ∀ s s' : Conn, s.now.identInDone = true → tryOnePacketWith handle s = .ok true s' →
      s'.now.identInDone = true ∧ s'.now.readBuf.length < s.now.readBuf.length := by
    intro s s' hs hbody
    rcases tryOnePacketWith_ok hu hs hbody with ⟨hf, -⟩ | ⟨-, h⟩
    · cases hf
    · exact h
  unfold packetsWith
  rw [Proc.bind_of_ok (Traced.read_apply c), Proc.loop, Proc.bind_apply]
  cases hbody : tryOnePacketWith handle c with
  | err e c' => rfl
  | panic => rfl
  | ok again c' =>
    cases again with
    | false => rfl
    | true =>
      obtain ⟨hid', hlt⟩ := hμ c c' hid hbody
      rw [Outcome.bind_ok, Outcome.bind_ok, if_pos rfl, if_pos rfl,
        Proc.bind_of_ok (Traced.read_apply c')]
      exact Proc.loop_fuel hμ hid' hlt (Nat.lt_succ_self _)

-- ============================================================================
-- The packet loop
-- ============================================================================

/-- The loop on `c`, and on `c'`, which has `b` behind it: where the first one
    stops for more bytes, the second one goes on. -/
inductive Continues (handle : Bytes → ConnM Unit) (b : Bytes) (c c' : Conn) : Prop
  | paused {c1 c1' : Conn} (h : packetsWith handle c = .ok () c1) (hlacks : c1.now.Lacks)
      (ha : Ahead b c1 c1') (h' : packetsWith handle c' = packetsWith handle c1')
  | failed {e : Error} {c1 c1' : Conn} (h : packetsWith handle c = .err e c1) (ha : Ahead b c1 c1')
      (h' : packetsWith handle c' = .err e c1')
  | panicked (h : packetsWith handle c = .panic) (h' : packetsWith handle c' = .panic)

omit [CryptoLib] in
theorem Ahead.ready (h : Ahead b c c') :
    c.now.identInDone = true ∧ c'.now.identInDone = true := by
  obtain ⟨r, h⟩ := h
  rw [h.now]
  exact ⟨h.ready, h.ready⟩

theorem packetsWith_of_lacks (hu : ∀ p, Blind (handle p)) (hid : c.now.identInDone = true)
    (h : c.now.Lacks) : packetsWith handle c = .ok () c := by
  have hbody : tryOnePacketWith handle c = .ok false c := by
    unfold tryOnePacketWith
    rw [Proc.bind_of_ok (Traced.read_apply c), Proc.bind_of_ok (takePacket_of_lacks h)]
    rfl
  rw [packetsWith_unfold hu hid, hbody]
  rfl

/-- By induction on the length of `read_buf`: a round that takes a packet takes
    the same one with `b` behind it. -/
theorem packetsWith_ahead (hu : ∀ p, Blind (handle p)) (h : Ahead b c c') :
    Continues handle b c c' := by
  generalize hn : c.now.readBuf.length = n
  induction n using Nat.strongRecOn generalizing c c' with
  | ind n ih =>
    obtain ⟨hid, hid'⟩ := h.ready
    rcases tryOnePacketWith_ahead hu h with hlacks | hagree
    · exact .paused (packetsWith_of_lacks hu hid hlacks) hlacks h rfl
    have hloop := packetsWith_unfold hu hid
    have hloop' := packetsWith_unfold hu hid'
    cases hbody : tryOnePacketWith handle c with
    | err e c1 =>
      obtain ⟨c1', hbody', h1⟩ := hagree.of_err hbody
      rw [hbody] at hloop
      rw [hbody'] at hloop'
      exact .failed hloop h1 hloop'
    | panic =>
      rw [hbody] at hloop
      rw [hagree.of_panic hbody] at hloop'
      exact .panicked hloop hloop'
    | ok again c1 =>
      obtain ⟨c1', hbody', h1⟩ := hagree.of_ok hbody
      rcases tryOnePacketWith_ok hu hid hbody with ⟨rfl, rfl, hlacks⟩ | ⟨rfl, -, hlt⟩
      · exact .paused (packetsWith_of_lacks hu hid hlacks) hlacks h rfl
      rw [hbody, Outcome.bind_ok, if_pos rfl] at hloop
      rw [hbody', Outcome.bind_ok, if_pos rfl] at hloop'
      cases ih _ (hn ▸ hlt) h1 rfl with
      | paused h2 hl ha h2' => exact .paused (hloop.trans h2) hl ha (hloop'.trans h2')
      | failed h2 ha h2' => exact .failed (hloop.trans h2) ha (hloop'.trans h2')
      | panicked h2 h2' => exact .panicked (hloop.trans h2) (hloop'.trans h2')

/-- With nothing behind it, the loop stops in the same place. -/
theorem packetsWith_same (hu : ∀ p, Blind (handle p)) (h : Ahead [] c c') :
    (packetsWith handle c).Agree Same (packetsWith handle c') := by
  have hsame : ∀ {c1 c1' : Conn}, Ahead [] c1 c1' → Same c1 c1' := by
    rintro c1 c1' ⟨r, h1⟩
    refine ⟨?_, h1.handled⟩
    rw [h1.now, List.append_nil, ← h1.buf]
  cases packetsWith_ahead hu h with
  | paused h1 hlacks ha h1' =>
    have hs := hsame ha
    rw [h1, h1', packetsWith_of_lacks hu ha.ready.2 (hs.1 ▸ hlacks)]
    exact ⟨rfl, hs⟩
  | failed h1 ha h1' =>
    rw [h1, h1']
    exact ⟨rfl, hsame ha⟩
  | panicked h1 h1' =>
    rw [h1, h1']
    trivial

-- ============================================================================
-- The ident line
-- ============================================================================

/-- What is on hand of the ident line and of what follows it. -/
def Connection.identText (k : Connection) : Bytes := k.identAcc ++ k.readBuf

/-- The connection with all of it in `ident_acc`. -/
def Connection.gather (k : Connection) : Connection :=
  { k with identAcc := k.identText, readBuf := [] }

omit [CryptoLib] in
theorem gather_eq (k : Connection) :
    (if k.readBuf = [] then k else { k with identAcc := k.identAcc ++ k.readBuf, readBuf := [] })
      = k.gather := by
  split
  · rename_i hnil
    unfold Connection.gather identText
    rw [hnil, List.append_nil, ← hnil]
  · rfl

/-- What `try_ident` makes of a complete line. -/
def readIdent (line : Bytes) : Except Error String :=
  match fromUtf8 (popIf 13 (popIf 10 line)) with
  | none => .error (.protocol "ident utf8")
  | some s =>
      if (!(strBytes "SSH-2.0-").isPrefixOf (strBytes s)
        && !(strBytes "SSH-1.99-").isPrefixOf (strBytes s)) = true then
        .error (.protocol "unsupported ident")
      else .ok s

/-- The connection after the ident line `s`, with `rest` behind it. -/
def Connection.identified (k : Connection) (s : String) (rest : Bytes) : Connection :=
  { k with identAcc := [], readBuf := rest, identPeer := some s, identInDone := true }

omit [CryptoLib] in
/-- No end of line yet. -/
theorem tryIdent_open (h : c.now.identText.findIdx? (· == 10) = none) :
    tryIdent c = if c.now.identText.length > 255 then
      .err (.protocol "ident too long") ⟨c.now.gather, c.log⟩ else .ok () ⟨c.now.gather, c.log⟩ := by
  unfold tryIdent
  rw [Proc.bind_of_ok (Traced.update_apply _ _), gather_eq, Proc.bind_of_ok (Traced.read_apply _)]
  have hacc : c.now.gather.identAcc = c.now.identText := rfl
  dsimp only
  rw [hacc, h]
  exact Proc.failIf_apply _ _ _

omit [CryptoLib] in
theorem tryIdent_late {pos : Nat} (h : c.now.identText.findIdx? (· == 10) = some pos)
    (hpos : 254 < pos) :
    tryIdent c = .err (.protocol "ident too long") ⟨c.now.gather, c.log⟩ := by
  unfold tryIdent
  rw [Proc.bind_of_ok (Traced.update_apply _ _), gather_eq, Proc.bind_of_ok (Traced.read_apply _)]
  have hacc : c.now.gather.identAcc = c.now.identText := rfl
  dsimp only
  rw [hacc, h]
  dsimp only
  rw [Proc.bind_apply, Proc.failIf_apply, if_pos hpos]
  rfl

omit [CryptoLib] in
/-- Too many bytes without an end of line, whatever comes after them. -/
theorem tryIdent_long (h : ∀ pos, c.now.identText.findIdx? (· == 10) = some pos → 254 < pos)
    (hlen : 255 < c.now.identText.length) :
    tryIdent c = .err (.protocol "ident too long") ⟨c.now.gather, c.log⟩ := by
  cases hpos : c.now.identText.findIdx? (· == 10) with
  | none => rw [tryIdent_open hpos, if_pos hlen]
  | some pos => exact tryIdent_late hpos (h pos hpos)

omit [CryptoLib] in
theorem tryIdent_gather (c : Conn) : tryIdent ⟨c.now.gather, c.log⟩ = tryIdent c := by
  have htwice : c.now.gather.gather = c.now.gather := by
    simp only [Connection.gather, identText, List.append_nil]
  unfold tryIdent
  rw [Proc.bind_of_ok (Traced.update_apply _ _), Proc.bind_of_ok (Traced.update_apply _ _),
    gather_eq, gather_eq, htwice]

omit [CryptoLib] in
/-- A line of admissible length. -/
theorem tryIdent_line {pos : Nat} (h : c.now.identText.findIdx? (· == 10) = some pos)
    (hpos : pos ≤ 254) :
    match readIdent (c.now.identText.take (pos + 1)) with
    | .error e => ∃ k, tryIdent c = .err e ⟨k, c.log⟩
    | .ok s => tryIdent c
        = .ok () ⟨c.now.identified s (c.now.identText.drop (pos + 1)), c.log⟩ := by
  have hlt : pos < c.now.identText.length := (List.findIdx?_eq_some_iff_findIdx_eq.mp h).1
  unfold tryIdent
  rw [Proc.bind_of_ok (Traced.update_apply _ _), gather_eq, Proc.bind_of_ok (Traced.read_apply _)]
  have hacc : c.now.gather.identAcc = c.now.identText := rfl
  dsimp only
  rw [hacc, h]
  dsimp only
  rw [Proc.bind_apply, Proc.failIf_apply, if_neg (Nat.not_lt.mpr hpos), Outcome.bind_ok,
    Proc.bind_of_ok (Proc.splitAt_of_le hlt _), Proc.bind_of_ok (Traced.update_apply _ _)]
  dsimp only
  unfold readIdent
  cases hs : fromUtf8 (popIf 13 (popIf 10 (c.now.identText.take (pos + 1)))) with
  | none => exact ⟨_, rfl⟩
  | some s =>
    rw [Proc.bind_of_ok (Proc.okOr_some _ _ _), Proc.bind_apply, Proc.failIf_apply]
    dsimp only
    by_cases hold : (!(strBytes "SSH-2.0-").isPrefixOf (strBytes s)
        && !(strBytes "SSH-1.99-").isPrefixOf (strBytes s)) = true
    · rw [if_pos hold, if_pos hold]
      exact ⟨_, rfl⟩
    rw [if_neg hold, if_neg hold]
    rw [Outcome.bind_ok, Proc.bind_of_ok (Traced.update_apply _ _), Traced.update_apply]
    dsimp only
    split
    · rename_i hnil
      rw [hnil]
      rfl
    · rfl

-- ============================================================================
-- One piece or two
-- ============================================================================

/-- `bytes` arrive. -/
def fed (bytes : Bytes) (c : Conn) : Conn :=
  ⟨{ c.now with readBuf := c.now.readBuf ++ bytes }, c.log⟩

theorem receive_ready (u : Upper) (bytes : Bytes) (hid : c.now.identInDone = true) :
    receive u bytes c = packetsWith u.onPayload (fed bytes c) := by
  unfold receive
  rw [Proc.bind_of_ok (Traced.update_apply _ _), Proc.bind_of_ok (Traced.read_apply _)]
  rw [Proc.ite_apply, if_neg (by simp [hid])]
  rfl

theorem receive_unready (u : Upper) (bytes : Bytes) (hid : c.now.identInDone = false) :
    receive u bytes c = (tryIdent (fed bytes c)).bind fun _ c1 =>
      if c1.now.identInDone then (u.onIdent c1).bind fun _ => packetsWith u.onPayload
      else .ok () c1 := by
  unfold receive
  rw [Proc.bind_of_ok (Traced.update_apply _ _), Proc.bind_of_ok (Traced.read_apply _)]
  rw [Proc.ite_apply, if_pos (by simp [hid]), Proc.bind_apply]
  refine congrArg (fun f => (tryIdent (fed bytes c)).bind f) (funext fun _ => funext fun c1 => ?_)
  rw [Proc.bind_of_ok (Traced.read_apply _), Proc.ite_apply]
  rfl

/-- `o` is how `a` was received and `o'` how `a ++ b` was: with `b` after `a`,
    it all comes to the same. -/
def Joined (u : Upper) (b : Bytes) (o o' : Outcome Conn Error Unit) : Prop :=
  match o with
  | .ok _ c1 => (receive u b c1).Agree Same o' ∧ c1.now.readBuf.length < 4 + Ssproxy.maxPacket + 16
  | .err e c1 => ∃ c2, o' = .err e c2 ∧ payloads c2.log = payloads c1.log
  | .panic => o' = .panic

omit [CryptoLib] in
theorem Ahead.handled (h : Ahead b c c') : payloads c'.log = payloads c.log := by
  obtain ⟨r, h⟩ := h
  exact h.handled

/-- From the packet loop on. -/
theorem joined_packets (h : Ahead b c c') :
    Joined u b (packetsWith u.onPayload c) (packetsWith u.onPayload c') := by
  cases packetsWith_ahead u.blindPayload h with
  | paused h1 hlacks ha h1' =>
    rw [h1, h1']
    refine ⟨?_, hlacks.short⟩
    rw [receive_ready u b ha.ready.1]
    refine packetsWith_same u.blindPayload ?_
    obtain ⟨r, ha⟩ := ha
    refine ⟨r ++ b, congrArg (· ++ b) ha.buf, ha.ready, ?_, ha.handled⟩
    rw [List.append_nil]
    exact ha.now
  | failed h1 ha h1' =>
    rw [h1, h1']
    exact ⟨_, rfl, ha.handled⟩
  | panicked h1 h1' =>
    rw [h1, h1']
    rfl

omit [CryptoLib] in
theorem identText_fed (bytes : Bytes) (c : Conn) :
    (fed bytes c).now.identText = c.now.identText ++ bytes :=
  (List.append_assoc _ _ _).symm

omit [CryptoLib] in
theorem Same.refl (c : Conn) : Same c c := ⟨rfl, rfl⟩

/-- From the ident line on. -/
theorem joined_ident {s : String} {rest : Bytes} :
    Joined u b ((u.onIdent ⟨c.now.identified s rest, c.log⟩).bind fun _ => packetsWith u.onPayload)
      ((u.onIdent ⟨c.now.identified s (rest ++ b), c.log⟩).bind fun _ =>
        packetsWith u.onPayload) := by
  have habreast : Abreast rest (rest ++ b) ⟨c.now.identified s rest, c.log⟩
      ⟨c.now.identified s (rest ++ b), c.log⟩ := ⟨rfl, rfl, rfl, rfl⟩
  have hagree := u.blindIdent _ _ _ _ habreast
  cases ho : u.onIdent ⟨c.now.identified s rest, c.log⟩ with
  | ok x c1 =>
    obtain ⟨c1', ho', h1⟩ := hagree.of_ok ho
    rw [ho']
    exact joined_packets ⟨rest, h1⟩
  | err e c1 =>
    obtain ⟨c1', ho', h1⟩ := hagree.of_err ho
    rw [ho']
    exact ⟨c1', rfl, h1.handled⟩
  | panic =>
    rw [hagree.of_panic ho]
    rfl

theorem joined_receive (u : Upper) (a b : Bytes) (c : Conn) :
    Joined u b (receive u a c) (receive u (a ++ b) c) := by
  cases hid : c.now.identInDone with
  | true =>
    rw [receive_ready u a hid, receive_ready u (a ++ b) hid]
    refine joined_packets ⟨c.now.readBuf ++ a, rfl, hid, ?_, rfl⟩
    simp only [fed, List.append_assoc]
  | false =>
    rw [receive_unready u a hid, receive_unready u (a ++ b) hid]
    have htext : (fed (a ++ b) c).now.identText = (fed a c).now.identText ++ b := by
      rw [identText_fed, identText_fed, List.append_assoc]
    have hfind := @List.findIdx?_append _ (fed a c).now.identText b (· == 10)
    rw [← htext] at hfind
    cases hpos : (fed a c).now.identText.findIdx? (· == 10) with
    | none =>
      rw [hpos, Option.none_or] at hfind
      rw [tryIdent_open hpos]
      by_cases hlen : (fed a c).now.identText.length > 255
      · have hlong : tryIdent (fed (a ++ b) c) = .err (.protocol "ident too long")
            ⟨(fed (a ++ b) c).now.gather, (fed (a ++ b) c).log⟩ := by
          refine tryIdent_long (fun pos hp => ?_) ?_
          · rw [hfind, Option.map_eq_some_iff] at hp
            obtain ⟨i, -, rfl⟩ := hp
            omega
          · rw [htext, List.length_append]
            omega
        rw [if_pos hlen, hlong]
        exact ⟨_, rfl, rfl⟩
      · -- nothing is decided yet, and the rest of the line comes with `b`
        have hgather : (fed b ⟨(fed a c).now.gather, (fed a c).log⟩).now.gather
            = (fed (a ++ b) c).now.gather := by
          simp only [fed, Connection.gather, identText, List.append_assoc, List.nil_append]
        have hsame : tryIdent (fed b ⟨(fed a c).now.gather, (fed a c).log⟩)
            = tryIdent (fed (a ++ b) c) := by
          rw [← tryIdent_gather, hgather]
          exact tryIdent_gather _
        have hwait : (fed a c).now.gather.identInDone = false := hid
        rw [if_neg hlen, Outcome.bind_ok, if_neg (by rw [hwait]; exact Bool.false_ne_true)]
        refine ⟨?_, Nat.succ_pos _⟩
        rw [receive_unready (c := ⟨(fed a c).now.gather, (fed a c).log⟩) u b hwait, ← hsame]
        exact Outcome.Agree.refl Same.refl _
    | some pos =>
      rw [hpos, Option.some_or] at hfind
      by_cases hlate : 254 < pos
      · rw [tryIdent_late hpos hlate, tryIdent_late hfind hlate]
        exact ⟨_, rfl, rfl⟩
      have hlt : pos < (fed a c).now.identText.length :=
        (List.findIdx?_eq_some_iff_findIdx_eq.mp hpos).1
      have hline := tryIdent_line hpos (Nat.le_of_not_lt hlate)
      have hline' := tryIdent_line hfind (Nat.le_of_not_lt hlate)
      rw [htext, List.take_append_of_le_length hlt, List.drop_append_of_le_length hlt] at hline'
      cases hread : readIdent ((fed a c).now.identText.take (pos + 1)) with
      | error e =>
        rw [hread] at hline hline'
        obtain ⟨k, hline⟩ := hline
        obtain ⟨k', hline'⟩ := hline'
        rw [hline, hline']
        exact ⟨_, rfl, rfl⟩
      | ok s =>
        rw [hread] at hline hline'
        dsimp only at hline hline'
        rw [hline, hline']
        exact joined_ident (c := c)

/-- Receiving `a` and then `b` ends as receiving `a ++ b` does: the same payloads
    handled, the same connection, the same error; an error in `a` is an error in
    `a ++ b`.  What is left over in between is shorter than one packet. -/
theorem receive_append (u : Upper) (a b : Bytes) (c : Conn) :
    match receive u a c with
    | .ok _ c1 => (receive u b c1).Agree Same (receive u (a ++ b) c) ∧
        c1.now.readBuf.length < 4 + Ssproxy.maxPacket + 16
    | .err e c1 => ∃ c2, receive u (a ++ b) c = .err e c2 ∧ payloads c2.log = payloads c1.log
    | .panic => receive u (a ++ b) c = .panic :=
  joined_receive u a b c

-- ============================================================================
-- process_in
-- ============================================================================

/-- What a connection runs above the packet layer. -/
def Upper.conn : Upper where
  onIdent := maybeStartKex
  onPayload := handlePayload
  blindIdent := blind_maybeStartKex
  blindPayload := blind_handlePayload

/-- The packet loop ends where the ident line is in. -/
theorem packetsWith_ready (hu : ∀ p, Blind (handle p)) (hid : c.now.identInDone = true)
    (h : packetsWith handle c = .ok () c1) : c1.now.identInDone = true := by
  have hself : Ahead [] c c :=
    ⟨c.now.readBuf, ⟨rfl, hid, by rw [List.append_nil], rfl⟩⟩
  cases packetsWith_ahead hu hself with
  | paused h1 hlacks ha h1' =>
    cases h1.symm.trans h
    exact ha.ready.1
  | failed h1 ha h1' => cases h1.symm.trans h
  | panicked h1 h1' => cases h1.symm.trans h

/-- The two hooks at the end of `process_in`, once the ident line is in. -/
def Connection.hooks : ConnM Unit := do
  let c ← read
  if c.identInDone then do
    maybeRekey
    flushPendingAll
  else return ()

theorem packetsWith_hooks (hid : c.now.identInDone = true) :
    processPackets c = (packetsWith handlePayload c).bind fun _ => hooks := by
  have hpackets : processPackets c
      = (packetsWith handlePayload c).bind fun _ => (do maybeRekey; flushPendingAll) := rfl
  rw [hpackets]
  cases hloop : packetsWith handlePayload c with
  | err e c1 => rfl
  | panic => rfl
  | ok x c1 =>
    have hready := packetsWith_ready blind_handlePayload hid hloop
    rw [Outcome.bind_ok, Outcome.bind_ok]
    unfold hooks
    rw [Proc.bind_of_ok (Traced.read_apply c1), Proc.ite_apply, if_pos hready]

/-- A read from the socket and `process_in` after it are `receive` with the
    handlers of a connection, and the hooks. -/
theorem processIn_receive (bytes : Bytes) :
    (do (Call.recv bytes).run; processIn) = (do receive Upper.conn bytes; hooks) := by
  funext c
  have hfed : (do (Call.recv bytes).run; processIn : ConnM Unit) c = processIn (fed bytes c) := rfl
  rw [hfed, Proc.bind_apply]
  unfold processIn
  rw [Proc.bind_of_ok (Traced.read_apply _), Proc.ite_apply]
  cases hid : c.now.identInDone with
  | true =>
    have hfed : (fed bytes c).now.identInDone = true := hid
    rw [if_neg (by simp [hfed]), receive_ready Upper.conn bytes hid]
    exact packetsWith_hooks hfed
  | false =>
    have hfed : (fed bytes c).now.identInDone = false := hid
    rw [if_pos (by simp [hfed]), receive_unready Upper.conn bytes hid, Proc.bind_apply]
    cases tryIdent (fed bytes c) with
    | err e c1 => rfl
    | panic => rfl
    | ok x c1 =>
      rw [Outcome.bind_ok, Outcome.bind_ok, Proc.bind_of_ok (Traced.read_apply c1),
        Proc.ite_apply]
      cases hid1 : c1.now.identInDone with
      | false =>
        have hwait : hooks c1 = .ok () c1 := by
          unfold hooks
          rw [Proc.bind_of_ok (Traced.read_apply c1), Proc.ite_apply, if_neg (by simp [hid1])]
          rfl
        rw [if_neg Bool.false_ne_true, if_neg Bool.false_ne_true, Outcome.bind_ok, hwait]
        rfl
      | true =>
        rw [if_pos rfl, if_pos rfl, Proc.bind_apply]
        show (maybeStartKex c1).bind _
          = ((maybeStartKex c1).bind fun _ => packetsWith handlePayload).bind _
        cases hident : maybeStartKex c1 with
        | err e c2 => rfl
        | panic => rfl
        | ok x c2 =>
          have habreast : Abreast c1.now.readBuf c1.now.readBuf c1 c1 := ⟨rfl, hid1, rfl, rfl⟩
          obtain ⟨c3, hc3, h3⟩ := (blind_maybeStartKex _ _ c1 c1 habreast).of_ok hident
          exact packetsWith_hooks h3.ready

/-- The first bytes of a peer's side of an exchange, up to the middle of its
    NEWKEYS. -/
def upToNewkeys : Bytes :=
  Toy.identLine ++ Toy.clearPacket (Toy.kexinit ["curve25519-sha256"] serverCiphers)
    ++ Toy.clearPacket (Msg.ecdhInit Toy.point) ++ (Toy.clearPacket Msg.newkeys).take 9

/-- The rest of the NEWKEYS, and a packet under the new key. -/
def fromNewkeys : Bytes := (Toy.clearPacket Msg.newkeys).drop 9 ++ Toy.sealedPacket [2]

omit [CryptoLib] in
/-- A server takes both and installs the key in between. -/
theorem receive_append_newkeys : ∃ c1 c2 c3 : Conn,
    @receive Toy.lib (@Upper.conn Toy.lib) upToNewkeys
        ⟨(Setup.server Toy.server).blank Toy.rng, []⟩ = .ok () c1 ∧
      @receive Toy.lib (@Upper.conn Toy.lib) fromNewkeys c1 = .ok () c2 ∧
      @receive Toy.lib (@Upper.conn Toy.lib) (upToNewkeys ++ fromNewkeys)
        ⟨(Setup.server Toy.server).blank Toy.rng, []⟩ = .ok () c3 ∧
      Same c2 c3 ∧ c1.now.recvInstalls = 0 ∧ c2.now.recvInstalls = 1 ∧
      (payloads c2.log).length = 4 := by
  let _ := Toy.lib
  have hpass : (receive Upper.conn upToNewkeys
      ⟨(Setup.server Toy.server).blank Toy.rng, []⟩).passes (fun c1 =>
        decide (c1.now.recvInstalls = 0) && (receive Upper.conn fromNewkeys c1).passes fun c2 =>
          decide (c2.now.recvInstalls = 1) && decide ((payloads c2.log).length = 4)) = true := by
    decide +kernel
  obtain ⟨_, c1, h1, hc1⟩ := Outcome.exists_of_passes hpass
  simp only [Bool.and_eq_true, decide_eq_true_eq] at hc1
  obtain ⟨hold, hpass⟩ := hc1
  obtain ⟨_, c2, h2, hc2⟩ := Outcome.exists_of_passes hpass
  simp only [Bool.and_eq_true, decide_eq_true_eq] at hc2
  generalize (⟨(Setup.server Toy.server).blank Toy.rng, []⟩ : Conn) = c at h1 ⊢
  have hjoin := receive_append Upper.conn upToNewkeys fromNewkeys c
  rw [h1] at hjoin
  obtain ⟨c3, h3, hsame⟩ := hjoin.1.of_ok h2
  exact ⟨c1, c2, c3, h1, h2, h3, hsame, hold, hc2.1, hc2.2⟩

end Ssproxy
