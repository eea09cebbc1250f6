/-
  Ssproxy.Backlog

  The output buffers.  `queue_msg` appends sealed packets, `consume_out` hands
  bytes to the socket, and nothing else touches them: what the socket took and
  what is still held is the ident line followed by all packets, in the order in
  which they were sealed, and the counters agree with what is held.
-/

import Ssproxy.Machine.Sender

namespace Ssproxy

open Lib Wire Connection Relation

-- ============================================================================
-- What is held
-- ============================================================================

namespace Connection

/-- The bytes that wait for the socket, in the order in which they leave. -/
def held (c : Connection) : Bytes :=
  c.currentOut.getD [] ++ c.identOut.getD [] ++ c.writeQ.flatten

/-- The unsent part of the ident line. -/
def unsentIdent (c : Connection) : Nat :=
  (if c.currentIsIdent then (c.currentOut.getD []).length else 0) + (c.identOut.getD []).length

/-- What `peek_out` returns. -/
def peeked (c : Connection) : Option Bytes := c.pullCurrentOut.currentOut.filter (!·.isEmpty)

theorem peekOut_apply (c : Conn) : peekOut c = .ok c.now.peeked ⟨c.now.pullCurrentOut, c.log⟩ := rfl

end Connection

/-- The packets sealed so far, one after the other. -/
def sealedBytes (log : List Obs) : Bytes :=
  (log.map fun o => match o with
    | .queued _ _ _ wire => wire
    | _ => []).flatten

/-- The counters agree with the buffers, and no queued packet is empty. -/
structure Balanced (c : Connection) : Prop where
  bytes : c.writeBytes = (if c.currentIsIdent then 0 else (c.currentOut.getD []).length)
    + c.writeQ.flatten.length
  packets : ∀ b ∈ c.writeQ, b ≠ []

/-- The output buffers. -/
structure Outbox where
  ident : Option Bytes
  current : Option Bytes
  isIdent : Bool
  queue : List Bytes
  bytes : Nat

def Connection.outbox (c : Connection) : Outbox :=
  ⟨c.identOut, c.currentOut, c.currentIsIdent, c.writeQ, c.writeBytes⟩

theorem sealedBytes_append (l l' : List Obs) :
    sealedBytes (l ++ l') = sealedBytes l ++ sealedBytes l' := by
  simp [sealedBytes]

section Outbox

variable {c c' : Connection}

theorem held_congr (h : c'.outbox = c.outbox) : c'.held = c.held := by
  simp only [outbox, Outbox.mk.injEq] at h
  obtain ⟨h1, h2, -, h3, -⟩ := h
  simp only [held, h1, h2, h3]

theorem Balanced.congr (hb : Balanced c) (h : c'.outbox = c.outbox) : Balanced c' := by
  simp only [outbox, Outbox.mk.injEq] at h
  obtain ⟨-, h2, h3, h4, h5⟩ := h
  refine ⟨?_, ?_⟩
  · rw [h2, h3, h4, h5]
    exact hb.bytes
  · rw [h4]
    exact hb.packets

/-- The two counters of the source, from one. -/
theorem Balanced.queued (hb : Balanced c) :
    c.queuedWriteBytes = c.held.length ∧ c.writeBytes + c.unsentIdent = c.held.length := by
  have hmap : ∀ o : Option Bytes, (o.map List.length).getD 0 = (o.getD []).length := by
    intro o
    cases o <;> rfl
  have hbytes := hb.bytes
  unfold queuedWriteBytes unsentIdent held
  simp only [hmap, List.length_append]
  cases hi : c.currentIsIdent with
  | false =>
    simp only [hi, Bool.false_eq_true, if_false] at hbytes ⊢
    omega
  | true =>
    simp only [hi, if_true] at hbytes ⊢
    omega

-- ----------------------------------------------------------------------------
-- pull_current_out
-- ----------------------------------------------------------------------------

/-- What is current stays; else the ident line is next, then a packet. -/
inductive Pulls (c : Connection) : Connection → Prop where
  | keep {b : UInt8} {bs : Bytes} (hc : c.currentOut = some (b :: bs)) : Pulls c c
  | ident {b : UInt8} {bs : Bytes} (hc : c.currentOut.getD [] = [])
      (hi : c.identOut = some (b :: bs)) :
      Pulls c { c with identOut := none, currentOut := some (b :: bs), currentIsIdent := true }
  | packet {b : Bytes} {q : List Bytes} (hc : c.currentOut.getD [] = [])
      (hi : c.identOut.getD [] = []) (hq : c.writeQ = b :: q) :
      Pulls c { c with identOut := none, currentOut := some b, currentIsIdent := false, writeQ := q }
  | none (hc : c.currentOut.getD [] = []) (hi : c.identOut.getD [] = []) (hq : c.writeQ = []) :
      Pulls c { c with identOut := none, currentOut := none, currentIsIdent := false }

theorem pulls_pullCurrentOut (c : Connection) : Pulls c c.pullCurrentOut := by
  -- the last part, with nothing current and no ident line left
  have hlast : ∀ isIdent, c.currentOut.getD [] = [] → c.identOut.getD [] = [] →
      Pulls c ({ c with
        identOut := none, currentOut := none, currentIsIdent := isIdent } : Connection).pullPacket := by
    intro isIdent hc hi
    unfold pullPacket
    dsimp only
    split
    · rename_i b q hq
      exact .packet hc hi hq
    · rename_i hq
      exact .none hc hi hq
  unfold pullCurrentOut
  rcases hc : c.currentOut with _ | _ | ⟨b, bs⟩
  · simp only [hc, reduceCtorEq, if_false, Option.isSome_none, Bool.false_eq_true]
    rcases hi : c.identOut with _ | _ | ⟨b, bs⟩
    · have hsame : ({ c with identOut := none, currentOut := none } : Connection) = c := by
        cases c
        cases hc
        cases hi
        rfl
      have h := hlast c.currentIsIdent (by rw [hc]; rfl) (by rw [hi]; rfl)
      exact hsame ▸ h
    · exact hlast c.currentIsIdent (by rw [hc]; rfl) (by rw [hi]; rfl)
    · exact Pulls.ident (by rw [hc]; rfl) hi
  · simp only [if_true, Option.isSome_none, Bool.false_eq_true, if_false]
    have h := hlast false (by rw [hc]; rfl)
    rcases hi : c.identOut with _ | _ | ⟨b, bs⟩
    · rw [hi] at h
      exact h rfl
    · rw [hi] at h
      exact h rfl
    · exact Pulls.ident (by rw [hc]; rfl) hi
  · simp only [hc, Option.some.injEq, reduceCtorEq, if_false, Option.isSome_some, if_true]
    exact .keep hc

theorem Pulls.held (h : Pulls c c') : c'.held = c.held := by
  cases h with
  | keep hc => rfl
  | ident hc hi => simp [Connection.held, hc, hi]
  | packet hc hi hq => simp [Connection.held, hc, hi, hq]
  | none hc hi hq => simp [Connection.held, hc, hi, hq]

theorem Pulls.balanced (h : Pulls c c') (hb : Balanced c) : Balanced c' := by
  have hbytes := hb.bytes
  cases h with
  | keep hc => exact hb
  | ident hc hi =>
    refine ⟨?_, hb.packets⟩
    simpa [hc] using hbytes
  | packet hc hi hq =>
    refine ⟨?_, fun b hb' => hb.packets b (by rw [hq]; exact List.mem_cons_of_mem _ hb')⟩
    simpa [hc, hq] using hbytes
  | none hc hi hq =>
    refine ⟨?_, hb.packets⟩
    simpa [hc, hq] using hbytes

/-- After `pull_current_out` something is current if anything is held. -/
theorem Pulls.wantsWrite (h : Pulls c c') (hb : Balanced c) :
    c.wantsWrite = true ↔ (c'.currentOut.filter (!·.isEmpty)).isSome = true := by
  have hempty : ∀ o : Option Bytes, o.getD [] = [] → o.any (!·.isEmpty) = false := by
    intro o ho
    cases o with
    | none => rfl
    | some b => simpa using ho
  unfold Connection.wantsWrite
  cases h with
  | keep hc => simp [hc]
  | ident hc hi => simp [hi]
  | packet hc hi hq =>
    have hne := hb.packets _ (by rw [hq]; exact List.mem_cons_self)
    simp [hq, hne]
  | none hc hi hq => simp [hq, hempty _ hc, hempty _ hi]

end Outbox

-- ============================================================================
-- Moves that take nothing away
-- ============================================================================

/-- What was sealed in between was appended, and the counters still agree. -/
structure Feeds (c c' : Conn) : Prop where
  bytes : ∃ new, c'.now.held = c.now.held ++ new ∧ sealedBytes c'.log = sealedBytes c.log ++ new
  balanced : Balanced c.now → Balanced c'.now

variable {c c' c1 : Conn} {p payload : Bytes} {owner : Option UInt32}

namespace Feeds

theorem refl (c : Conn) : Feeds c c := ⟨⟨[], by simp⟩, id⟩

theorem trans (h : Feeds c c1) (h' : Feeds c1 c') : Feeds c c' := by
  obtain ⟨new, hb, hl⟩ := h.bytes
  obtain ⟨new', hb', hl'⟩ := h'.bytes
  refine ⟨⟨new ++ new', ?_, ?_⟩, h'.balanced ∘ h.balanced⟩
  · rw [hb', hb, List.append_assoc]
  · rw [hl', hl, List.append_assoc]

/-- The output buffers were not touched. -/
theorem of_eq (ho : c'.now.outbox = c.now.outbox) (hl : sealedBytes c'.log = sealedBytes c.log) :
    Feeds c c' :=
  ⟨⟨[], by rw [held_congr ho, List.append_nil], by rw [hl, List.append_nil]⟩,
    fun hb => hb.congr ho⟩

/-- The same before a move. -/
theorem behind (h : Feeds c1 c') (ho : c1.now.outbox = c.now.outbox)
    (hl : sealedBytes c1.log = sealedBytes c.log) : Feeds c c' :=
  (of_eq ho hl).trans h

theorem pull (c : Conn) : Feeds c ⟨c.now.pullCurrentOut, c.log⟩ := by
  have h := pulls_pullCurrentOut c.now
  exact ⟨⟨[], by rw [h.held, List.append_nil], by simp⟩, h.balanced⟩

theorem event (c : Conn) (ev : Event) : Feeds c (withEvent c ev) :=
  of_eq rfl (by simp [withEvent, sealedBytes])

theorem channel (c : Conn) (id : UInt32) (ch : Channel) : Feeds c (withChannel c id ch) :=
  of_eq rfl rfl

theorem freed (c : Conn) (id : UInt32) : Feeds c (withoutChannel c id) := by
  refine of_eq rfl ?_
  unfold withoutChannel
  dsimp only
  split <;> simp [sealedBytes]

end Feeds

variable [CryptoLib]

theorem Queues.feeds (h : Queues owner payload c c') : Feeds c c' := by
  cases h with
  | @mk cipher pkt tag hne hseal =>
    have hlen := (DirectionKeys.sealBuf_length hseal).1
    rw [length_frame] at hlen
    refine ⟨⟨pkt ++ tag, ?_, ?_⟩, fun hb => ⟨?_, ?_⟩⟩
    · simp [Connection.held, sealed]
    · simp [sealedBytes]
    · have hbytes := hb.bytes
      simp only [sealed, List.flatten_append, List.flatten_singleton, List.length_append]
      omega
    · intro b hmem
      rcases List.mem_append.mp hmem with hmem | hmem
      · exact hb.packets b hmem
      · rw [List.mem_singleton.mp hmem]
        rintro hnil
        have := congrArg List.length hnil
        simp only [List.length_append, List.length_nil] at this
        omega

variable {D : Bytes → Prop}

/-- An elementary move of the sending side. -/
theorem Outgo.feeds (h : Outgo D c c') : Feeds c c' := by
  cases h with
  | @rest _ new hs hlog hnew =>
    have hnone : sealedBytes new = [] := by
      rw [sealedBytes, List.flatten_eq_nil_iff]
      intro l hl
      obtain ⟨o, ho, rfl⟩ := List.mem_map.mp hl
      cases o with
      | queued b owner payload wire => cases hnew _ ho
      | _ => rfl
    have houtbox : c'.now.outbox = c.now.outbox :=
      congrArg (fun s => Outbox.mk s.ident s.current s.isIdent s.queue s.bytes) hs
    refine .of_eq houtbox ?_
    rw [hlog, sealedBytes_append, hnone, List.append_nil]
  | queue hq hdata => exact hq.feeds
  | install pk => exact .of_eq rfl rfl
  | pull => exact .pull c

theorem Outgoes.feeds (h : Outgoes D c c') : Feeds c c' :=
  h.induct Feeds.refl (fun _ _ _ => Feeds.trans) fun _ _ => Outgo.feeds

theorem Feeds.of_outgoes (h : Outgoes (fun _ => True) c c') : Feeds c c' := h.feeds

omit [CryptoLib] in
theorem Draws.feeds (h : Draws c c') : Feeds c c' := by
  cases h
  exact .of_eq rfl rfl

omit [CryptoLib] in
theorem Allocates.feeds {ch : Channel} {id : UInt32} (h : Allocates ch c id c') : Feeds c c' := by
  cases h
  exact .of_eq rfl (by simp [sealedBytes])

theorem Receives.feeds (h : Receives p c c1) : Feeds c c1 := .of_outgoes h.outgoes

theorem Starts.feeds (h : Starts c c') : Feeds c c' := .of_outgoes h.outgoes

theorem Switches.feeds {pk : PendingKeys} (h : Switches pk c c') : Feeds c c' :=
  .of_outgoes h.outgoes

theorem Step.feeds {k : Cause} (h : Step k c c') (hk : ∀ n, k ≠ .call (.consumeOut n)) :
    Feeds c c' :=
  (h.outgoes hk (carries_true _)).feeds

theorem Handles.feeds (h : Handles p c c') : Feeds c c' := .of_outgoes h.outgoes

theorem Faults.feeds (h : Faults c c') : Feeds c c' := .of_outgoes h.outgoes

theorem Quiet.feeds (h : Quiet c c') : Feeds c c' := (h.outgoes (carries_true _)).feeds

theorem Trail.feeds {P : Cause → Prop} (h : Trail P c c') (hP : ∀ n, ¬P (.call (.consumeOut n))) :
    Feeds c c' := by
  induction h with
  | refl => exact .refl c
  | tail _ hstep ih =>
    obtain ⟨k, hk, hs⟩ := hstep
    exact ih.trans (hs.feeds fun n hn => hP n (hn ▸ hk))

theorem Turns.feeds (h : Turns c c') : Feeds c c' := by
  induction h with
  | refl => exact .refl c
  | tail _ hturn ih =>
    cases hturn with
    | quiet h => exact ih.trans h.feeds
    | packet h hs => exact ih.trans (h.feeds.trans (hs.trail.feeds fun _ h => h))

theorem Breaks.feeds (h : Breaks c c') : Feeds c c' := by
  cases h with
  | mk ht hf hs =>
    have hsteps : Feeds _ c' := (Steps.trail hs).feeds fun _ h => h
    rcases hf with rfl | hf
    · exact (Turns.feeds ht).trans hsteps
    · exact ((Turns.feeds ht).trans hf.feeds).trans hsteps

-- ============================================================================
-- What the socket takes
-- ============================================================================

section Drained

variable {c : Connection} {b : Bytes} {n : Nat}

omit [CryptoLib] in
/-- What `consume_out` leaves in the current piece, and what it keeps. -/
theorem drained_out :
    (c.drained b n).currentOut = (if n = b.length then none else some (b.drop n)) ∧
    (c.drained b n).currentIsIdent = (if n = b.length then false else c.currentIsIdent) ∧
    (c.drained b n).identOut = c.identOut ∧ (c.drained b n).writeQ = c.writeQ ∧
    (c.drained b n).writeBytes = (if c.currentIsIdent then c.writeBytes else c.writeBytes - n) := by
  unfold Connection.drained
  cases c.currentIsIdent with
  | false => by_cases hall : n = b.length <;> simp [hall]
  | true => by_cases hall : n = b.length <;> simp [hall]

omit [CryptoLib] in
theorem held_drained (hb : c.currentOut = some b) :
    b.take n ++ (c.drained b n).held = c.held := by
  obtain ⟨hout, -, hident, hq, -⟩ := drained_out (c := c) (b := b) (n := n)
  have hrest : (c.drained b n).currentOut.getD [] = b.drop n := by
    rw [hout]
    by_cases hall : n = b.length
    · rw [if_pos hall, hall, List.drop_length]
      rfl
    · rw [if_neg hall]
      rfl
  unfold Connection.held
  rw [hrest, hident, hq, hb, ← List.append_assoc, ← List.append_assoc, List.take_append_drop]
  rfl

omit [CryptoLib] in
/-- The counter does not go below zero. -/
theorem le_writeBytes (h : Balanced c) (hb : c.currentOut = some b)
    (hi : c.currentIsIdent = false) : b.length ≤ c.writeBytes := by
  have hbytes := h.bytes
  simp only [hi, hb, Bool.false_eq_true, if_false, Option.getD_some] at hbytes
  omega

omit [CryptoLib] in
theorem Balanced.drained (h : Balanced c) (hb : c.currentOut = some b) (hn : n ≤ b.length) :
    Balanced (c.drained b n) := by
  obtain ⟨hout, hident, -, hq, hbytes⟩ := drained_out (c := c) (b := b) (n := n)
  have hbooks := h.bytes
  have hlen : (b.drop n).length = b.length - n := List.length_drop
  refine ⟨?_, hq ▸ h.packets⟩
  rw [hout, hident, hq, hbytes]
  cases hi : c.currentIsIdent with
  | false =>
    rw [hi, hb] at hbooks
    by_cases hall : n = b.length
    · simp [hall] at hbooks ⊢
      omega
    · simp [hall] at hbooks ⊢
      omega
  | true =>
    rw [hi] at hbooks
    by_cases hall : n = b.length
    · simpa [hall] using hbooks
    · simpa [hall] using hbooks

end Drained

theorem Move.balanced (h : Move c c') (hb : Balanced c.now) : Balanced c'.now := by
  cases h with
  | quiet h => exact (Quiet.feeds h).balanced hb
  | fault h => exact (Faults.feeds h).balanced hb
  | recv bytes => exact hb.congr rfl
  | @own _ k h =>
    by_cases hk : ∃ n, k = .call (.consumeOut n)
    · obtain ⟨n, rfl⟩ := hk
      cases h with
      | drain hout hn =>
        exact ((pulls_pullCurrentOut c.now).balanced hb).drained hout (Nat.min_le_right _ _)
    · exact (Step.feeds h fun n hn => hk ⟨n, hn⟩).balanced hb

theorem Moves.balanced (h : Moves c c') (hb : Balanced c.now) : Balanced c'.now := by
  induction h with
  | refl => exact hb
  | tail _ hm ih => exact hm.balanced ih

/-- The bytes that `call` hands to the socket. -/
def Call.taken (call : Call) (c : Connection) : Bytes :=
  match call with
  | .consumeOut n => (c.peeked.getD []).take n
  | _ => []

/-- `runCalls`, returning the bytes that the socket took. -/
def drainCalls : List Call → ConnM Bytes
  | [] => pure []
  | call :: calls => do
      let c ← Traced.read
      Proc.ignore call.run
      let rest ← drainCalls calls
      return call.taken c ++ rest

/-- `Setup.run`, returning the bytes that the socket took. -/
def Setup.drain (setup : Setup) (rng : Rng) (calls : List Call) : Outcome Conn Error Bytes :=
  (do Proc.ignore Connection.startKex; drainCalls calls) ⟨setup.blank rng, []⟩

/-- `out` has left, and with what is held it is `ident` and all packets. -/
structure Fifo (ident out : Bytes) (c : Conn) : Prop where
  order : out ++ c.now.held = ident ++ sealedBytes c.log
  balanced : Balanced c.now

namespace Fifo

variable {ident out : Bytes}

omit [CryptoLib] in
theorem feeds (h : Fifo ident out c) (hf : Feeds c c') : Fifo ident out c' := by
  obtain ⟨new, hb, hl⟩ := hf.bytes
  refine ⟨?_, hf.balanced h.balanced⟩
  rw [hb, hl, ← List.append_assoc, h.order, List.append_assoc]

omit [CryptoLib] in
theorem drained {b : Bytes} {n : Nat} (h : Fifo ident out c) (hb : c.now.currentOut = some b) :
    Fifo ident (out ++ b.take n) ⟨c.now.drained b (min n b.length), c.log⟩ := by
  have hle : min n b.length ≤ b.length := Nat.min_le_right _ _
  refine ⟨?_, h.balanced.drained hb hle⟩
  have htake : b.take n = b.take (min n b.length) := by
    rw [List.take_eq_take_iff, Nat.min_assoc, Nat.min_self]
  rw [htake, List.append_assoc, held_drained hb]
  exact h.order

/-- `consume_out` takes from the front of what `peek_out` shows. -/
theorem consumeOut (h : Fifo ident out c) (n : Nat) (hwf : WellFormed c) :
    (Connection.consumeOut n c).Sat
      (fun _ c' => Fifo ident (out ++ (c.now.peeked.getD []).take n) c')
      (fun _ c' => Fifo ident (out ++ (c.now.peeked.getD []).take n) c') := by
  by_cases hn : n = 0
  · subst hn
    rw [List.take_zero, List.append_nil]
    exact h
  have hpull := h.feeds (.pull c)
  cases hout : c.now.pullCurrentOut.currentOut with
  | none =>
    have hpeek : c.now.peeked.getD [] = [] := by
      rw [peeked, hout]
      rfl
    rw [consumeOut_empty hn hout, hpeek, List.take_nil, List.append_nil]
    exact hpull
  | some b =>
    have hpeek : c.now.peeked.getD [] = b := by
      rw [peeked, hout]
      cases b <;> rfl
    have hdrain := hpull.drained (n := n) hout
    rw [consumeOut_apply hn hout, hpeek, Proc.ite_apply]
    split
    · refine (maybeStartKex_follows _ ((Step.drain hout hn).wellFormed hwf)).mono ?_ ?_
      · exact fun _ _ hs => hdrain.feeds ((Steps.trail hs).feeds fun _ h => h)
      · exact fun _ _ hs => hdrain.feeds ((Steps.trail hs).feeds fun _ h => h)
    · exact hdrain

/-- One call. -/
theorem call (h : Fifo ident out c) (call : Call) (hwf : WellFormed c) :
    (call.run c).Sat (fun _ c' => Fifo ident (out ++ call.taken c.now) c')
      (fun _ c' => Fifo ident (out ++ call.taken c.now) c') := by
  by_cases hout : ∃ n, call = .consumeOut n
  · obtain ⟨n, rfl⟩ := hout
    exact h.consumeOut n hwf
  have hnone : call.taken c.now = [] := by
    cases call with
    | consumeOut n => exact absurd ⟨n, rfl⟩ hout
    | _ => rfl
  rw [hnone, List.append_nil]
  by_cases hin : call = .processIn
  · subst hin
    exact (processIn_sat c hwf).mono (fun _ _ ht => h.feeds (Turns.feeds ht))
      fun _ _ hb => h.feeds hb.feeds
  by_cases hrecv : ∃ bytes, call = .recv bytes
  · obtain ⟨bytes, rfl⟩ := hrecv
    exact h.feeds (.of_eq rfl rfl)
  have hcalled := call.run_called c hwf hin fun bytes hb => hrecv ⟨bytes, hb⟩
  have hfeeds : ∀ c', Called call c c' → Feeds c c' := by
    intro c' hc
    refine hc.trail.feeds fun n hk => ?_
    rcases hk with hk | hk
    · exact hk
    · cases hk
      exact hout ⟨n, rfl⟩
  exact hcalled.mono (fun _ c' hc => h.feeds (hfeeds c' hc)) fun _ c' hc => h.feeds (hfeeds c' hc)

end Fifo

/-- Calls one after the other: the bytes add up, and the state is that of
    `runCalls`. -/
theorem drainCalls_sat {ident : Bytes} (calls : List Call) (out : Bytes) (c : Conn)
    (h : Fifo ident out c) (hwf : WellFormed c) :
    (drainCalls calls c).Sat
      (fun more c' => Fifo ident (out ++ more) c' ∧ runCalls calls c = .ok () c')
      (fun _ _ => False) := by
  induction calls generalizing out c with
  | nil =>
    refine ⟨?_, rfl⟩
    rw [List.append_nil]
    exact h
  | cons call calls ih =>
    have hcall := h.call call hwf
    have hmoves := call.run_follows c hwf
    have hone : ∃ c1, Proc.ignore call.run c = .ok () c1 ∧
        Fifo ident (out ++ call.taken c.now) c1 ∧ WellFormed c1 := by
      unfold Proc.ignore
      cases hrun : call.run c with
      | panic => exact absurd hrun hmoves.ne_panic
      | ok a c1 => exact ⟨c1, rfl, hcall.of_ok hrun, Moves.wellFormed (hmoves.of_ok hrun) hwf⟩
      | err e c1 => exact ⟨c1, rfl, hcall.of_err hrun, Moves.wellFormed (hmoves.of_err hrun) hwf⟩
    obtain ⟨c1, hrun, h1, hwf1⟩ := hone
    unfold drainCalls
    rw [Proc.bind_of_ok (Traced.read_apply c), Proc.bind_of_ok hrun]
    refine (ih _ c1 h1 hwf1).bind ?_
    rintro more c' ⟨hfifo, hrest⟩
    refine ⟨?_, ?_⟩
    · rw [← List.append_assoc]
      exact hfifo
    · unfold runCalls Proc.forEach
      rw [Proc.bind_of_ok hrun]
      exact hrest

namespace Setup

/-- The ident line of a connection. -/
def identLine : Setup → Bytes
  | server cfg => strBytes cfg.ident ++ [13, 10]
  | client cfg => strBytes cfg.ident ++ [13, 10]

omit [CryptoLib] in
theorem blank_fifo (setup : Setup) (rng : Rng) : Fifo setup.identLine [] ⟨setup.blank rng, []⟩ := by
  cases setup with
  | server cfg =>
    refine ⟨?_, ?_, ?_⟩
    · simp [Connection.held, blank, Connection.new, identLine, sealedBytes]
    · rfl
    · intro b hb
      cases hb
  | client cfg =>
    refine ⟨?_, ?_, ?_⟩
    · simp [Connection.held, blank, Connection.new, identLine, sealedBytes]
    · rfl
    · intro b hb
      cases hb

theorem Reaches.balanced {setup : Setup} (h : setup.Reaches c) : Balanced c.now := by
  obtain ⟨rng, c0, hstart, hmoves⟩ := h
  exact Moves.balanced hmoves (hstart.feeds.balanced (setup.blank_fifo rng).balanced)

/-- Whatever is called in whatever order, what the socket took and what is held
    is the ident line and the packets in the order of their sealing; the
    counters are exact, and `wants_write` says whether there is something to
    peek at. -/
theorem run_fifo (setup : Setup) (rng : Rng) (calls : List Call) : ∃ out c,
    setup.drain rng calls = .ok out c ∧ setup.run rng calls = .ok () c ∧
      out ++ c.now.held = setup.identLine ++ sealedBytes c.log ∧
      c.now.queuedWriteBytes = c.now.held.length ∧
      c.now.writeBytes + c.now.unsentIdent = c.now.held.length ∧
      (∀ b, c.now.pullCurrentOut.currentOut = some b →
        c.now.pullCurrentOut.currentIsIdent = false →
        b.length ≤ c.now.pullCurrentOut.writeBytes) ∧
      (c.now.wantsWrite = true ↔ c.now.peeked.isSome = true) := by
  have hsat : (setup.drain rng calls).Sat
      (fun out c => Fifo setup.identLine out c ∧ setup.run rng calls = .ok () c)
      (fun _ _ => False) := by
    obtain ⟨c0, h0⟩ : ∃ c0, Proc.ignore startKex ⟨setup.blank rng, []⟩ = .ok () c0 ∧
        Starts ⟨setup.blank rng, []⟩ c0 := by
      have hstart := startKex_sat ⟨setup.blank rng, []⟩
      unfold Proc.ignore
      cases hs : startKex ⟨setup.blank rng, []⟩ with
      | panic => exact absurd hs hstart.ne_panic
      | ok a c0 => exact ⟨c0, rfl, hstart.of_ok hs⟩
      | err e c0 => exact (hstart.of_err hs).elim
    have hfifo := (setup.blank_fifo rng).feeds h0.2.feeds
    unfold drain run
    rw [Proc.bind_of_ok h0.1, Proc.bind_of_ok h0.1]
    exact drainCalls_sat calls [] c0 hfifo (setup.starts_wellFormed h0.2)
  cases hd : setup.drain rng calls with
  | panic => exact absurd hd hsat.ne_panic
  | err e c => exact (hsat.of_err hd).elim
  | ok out c =>
    obtain ⟨hfifo, hrun⟩ := hsat.of_ok hd
    have hpull := pulls_pullCurrentOut c.now
    refine ⟨out, c, rfl, hrun, hfifo.order, hfifo.balanced.queued.1, hfifo.balanced.queued.2, ?_,
      hpull.wantsWrite hfifo.balanced⟩
    intro b hb hi
    exact le_writeBytes (hpull.balanced hfifo.balanced) hb hi

end Setup

end Ssproxy
