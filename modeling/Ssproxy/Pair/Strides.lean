/-
  Ssproxy.Pair.Strides

  What an end sends in the course of a run, and its calls move by move.  A
  stride is a move that touches one channel at most; every call is made of strides.
-/

import Ssproxy.Inflow
import Ssproxy.Pair.Link
import Ssproxy.Pair.Strokes

namespace Ssproxy

open Lib Wire Connection Relation

variable [CryptoLib]

-- ============================================================================
-- What is sent
-- ============================================================================

section Posts

variable {c b : Connection} {k : Cause} {owner : Option UInt32} {p q : Bytes}

omit [CryptoLib] in
theorem known_of_parcel {d : Parcel UInt32} (h : parcel q = some d) : Known q := by
  right
  rw [h]
  rfl

omit [CryptoLib] in
theorem Emits.known (h : Emits b k owner q) (hlen : q.length < 2 ^ 32) : Known q := by
  cases h with
  | kexinit hk hm => exact .inl (flowFree_of_isMsg hm (by decide))
  | disconnect | eof | close => exact .inl (flowFree_cons (by decide))
  | adjust => exact known_of_parcel (parcel_windowAdjust _ _)
  | @data _ id r chunk hgate =>
    have hdata : chunk.length < 2 ^ 32 := by
      simp only [Msg.channelData, putBytes, List.length_append, List.length_cons] at hlen
      omega
    exact known_of_parcel (parcel_channelData r hdata)
  | confirm => exact known_of_parcel (parcel_openConfirmation _ _ _ _)
  | failure => exact known_of_parcel (parcel_openFailure _ _ _)
  | opening => exact known_of_parcel (parcel_channelOpen _ _ _ _ _)

omit [CryptoLib] in
theorem Emits.flowFree (h : Emits b k none q) : FlowFree q := by
  cases h with
  | kexinit hk hm => exact flowFree_of_isMsg hm (by decide)
  | disconnect => exact flowFree_cons (by decide)

/-- `p` asks for a type of channel that there is not. -/
def Strange (p : Bytes) : Prop :=
  ∃ typ remote, MsgType.channelOpen.code :: (putStr typ ++ putU32 remote) <+: p ∧
    typ ≠ "direct-tcpip"

omit [CryptoLib] in
theorem Strange.not_known (h : Strange p) (hlen : p.length < 2 ^ 32) : ¬Known p := by
  obtain ⟨typ, remote, ⟨rest, rfl⟩, ht⟩ := h
  rintro (hfree | hsome)
  · exact hfree .channelOpen (by decide) rfl
  · have htyp : (strBytes typ).length < 2 ^ 32 := by
      simp only [putStr, putBytes, List.length_append, List.length_cons] at hlen
      omega
    rw [List.cons_append, parcel_unknownType remote htyp ht] at hsome
    cases hsome

omit [CryptoLib] in
/-- An answer is no parcel, or it refuses a channel of such a type. -/
theorem Answers.flowFree_or (h : Answers c p owner q) :
    FlowFree q ∨ Strange p ∧ (parcel q).isSome = true := by
  cases h with
  | request hm hw hch hr ht =>
    rcases ht with rfl | rfl
    · exact .inl (flowFree_cons (by decide))
    · exact .inl (flowFree_cons (by decide))
  | «global» hm hw hr =>
    rcases hr with rfl | rfl
    · exact .inl (flowFree_cons (by decide))
    · exact .inl (flowFree_cons (by decide))
  | service | credentials | ping | unknown => exact .inl (flowFree_cons (by decide))
  | unknownType ha hm ht =>
    refine .inr ⟨⟨_, _, hm, ht.2⟩, ?_⟩
    rw [parcel_openFailure]
    rfl

/-- The same of all that a handler sends. -/
theorem Replied.flowFree_or (h : Replied p c b owner q) :
    FlowFree q ∨ Strange p ∧ (parcel q).isSome = true := by
  cases h with
  | answer hb hch h => exact h.flowFree_or
  | @transport m q hm hmem =>
    refine .inl (flowFree_of_isMsg hm ?_)
    revert hmem
    cases m <;> decide
  | accepted | rejected | refused => exact .inl (flowFree_cons (by decide))

variable {setup : Setup} {x : Conn} {w : Bytes}

/-- The rule for what is sent: `P` holds of the KEXINIT of the constructor, and of
    what a move queues. -/
theorem Setup.Reaches.sent {P : Option UInt32 → Bytes → Prop} (h : setup.Reaches x)
    (h0 : ∀ q, IsMsg .kexinit q → P none q)
    (hstep : ∀ b k owner q, Emits b k owner q → P owner q)
    (hreply : ∀ c b p owner q, Obs.handled c p ∈ x.log → Replied p c b owner q → P owner q)
    (hmem : Obs.queued b owner q w ∈ x.log) : P owner q := by
  obtain ⟨rng, c0, hstart, hmoves⟩ := h
  have hall : ∀ b owner q w, Obs.queued b owner q w ∈ x.log → P owner q := by
    refine Moves.invariant (G := fun o => ∀ c p, o = .handled c p →
        ∀ b owner q, Replied p c b owner q → P owner q)
      (I := fun x => ∀ b owner q w, Obs.queued b owner q w ∈ x.log → P owner q) ?_ hmoves
      (setup.starts_wellFormed hstart) ?_ ?_
    · intro c c' hwf hI hm hG b owner q w hmem
      rcases hm.adds b owner q w hmem with hold | hnew
      · exact hI b owner q w hold
      cases hnew with
      | step hs => exact hstep _ _ _ _ hs.2
      | reply hp hr => exact hG _ hp _ _ rfl _ _ _ hr
    · intro b owner q w hmem
      have hstarts : Adds (fun _ owner q => P owner q) [] c0.log :=
        hstart.adds fun b q _ hm => h0 q hm
      rcases hstarts b owner q w hmem with hold | hnew
      · cases hold
      · exact hnew
    · rintro o ho c p rfl b owner q hr
      exact hreply c b p owner q ho hr
  exact hall b owner q w hmem

/-- Whatever is sent is a parcel or has nothing to do with one. -/
theorem Setup.Reaches.known (h : setup.Reaches x) (hmem : Obs.queued b owner q w ∈ x.log)
    (hlen : q.length < 2 ^ 32) : Known q := by
  refine h.sent (P := fun _ q => q.length < 2 ^ 32 → Known q) ?_ ?_ ?_ hmem hlen
  · exact fun q hm _ => .inl (flowFree_of_isMsg hm (by decide))
  · exact fun b k owner q he hlen => he.known hlen
  · intro c b p owner q hp hr _
    rcases hr.flowFree_or with hfree | ⟨-, hsome⟩
    · exact .inl hfree
    · exact .inr hsome

/-- With a peer that is known, only channels send parcels. -/
theorem Setup.Reaches.subdued (h : setup.Reaches x)
    (hheard : ∀ b p, Obs.handled b p ∈ x.log → Known p ∧ p.length < 2 ^ 32)
    (hmem : Obs.queued b none q w ∈ x.log) : FlowFree q := by
  refine h.sent (P := fun owner q => owner = none → FlowFree q) ?_ ?_ ?_ hmem rfl
  · exact fun q hm _ => flowFree_of_isMsg hm (by decide)
  · rintro b k _ q he rfl
    exact he.flowFree
  · intro c b p owner q hp hr _
    rcases hr.flowFree_or with hfree | ⟨hstrange, -⟩
    · exact hfree
    · obtain ⟨hknown, hlen⟩ := hheard c p hp
      exact absurd hknown (hstrange.not_known hlen)

end Posts

-- ============================================================================
-- Strides
-- ============================================================================

/-- A move that touches one channel at most. -/
def Stride (c c' : Conn) : Prop :=
  ∃ k : Cause, k.Polite c.now ∧ Touch k c c' ∧ c'.now.settings = c.now.settings

/-- Sequences of strides. -/
abbrev Strides : Conn → Conn → Prop := ReflTransGen Stride

section Calls

variable {c c' c1 : Conn} {k : Cause} {P : Cause → Prop} {call : Call}

omit [CryptoLib] in
/-- Only the application can be impolite. -/
theorem Cause.Inner.polite (h : k.Inner) (c : Connection) : k.Polite c := by
  cases k with
  | call made => exact h.elim
  | _ => trivial

omit [CryptoLib] in
theorem TouchSteps.strides (h : TouchSteps P c c') (hP : ∀ k, P k → ∀ c, k.Polite c) :
    Strides c c' := by
  apply ReflTransGen.mono _ c c' h
  rintro c1 c2 ⟨k, hk, ht, hset⟩
  exact ⟨k, hP k hk _, ht, hset⟩

theorem Step.strides (h : Step k c c') (hk : k.Inner) : Strides c c' :=
  (h.touches hk).strides fun _ hk c => hk.polite c

theorem Trail.strides (h : Trail Cause.Inner c c') : Strides c c' := by
  induction h with
  | refl => exact .refl
  | tail _ hlast ih =>
    obtain ⟨k, hk, hs⟩ := hlast
    exact ih.trans (hs.strides hk)

/-- The step of a call, in the state in which it is made. -/
theorem Step.strides_call (h : Step (.call call) c c') (hp : call.Polite c.now) :
    Strides c c' := by
  cases hd : call.decides with
  | none =>
    have htouches := h.touches (P := fun k => k = .call call) rfl
    refine htouches.strides ?_
    rintro k rfl x id hid
    rw [hd] at hid
    cases hid
  | some id =>
    refine .single ⟨.call call, hp, h.touch ?_, h.extends.settings⟩
    intro j data hcall
    cases hcall
    cases hd

theorem Called.strides (h : Called call c c') (hp : call.Polite c.now) : Strides c c' := by
  cases h with
  | own h hs => exact (h.strides_call hp).trans (Trail.strides (Steps.trail hs))
  | consume hcall h ha =>
    refine (h.strides_call hp).trans ?_
    cases ha with
    | none => exact .refl
    | grant h => exact h.strides trivial
  | other hs => exact Trail.strides (Steps.trail hs)

omit [CryptoLib] in
theorem Strides.log (h : Strides c c') : c.log <+: c'.log := by
  induction h with
  | refl => exact List.prefix_rfl
  | tail _ hlast ih =>
    obtain ⟨k, -, ht, -⟩ := hlast
    exact ih.trans ht.log

omit [CryptoLib] in
/-- The channels and the history stay as they are. -/
theorem Strides.still (ht : c'.now.channels = c.now.channels) (hl : c'.log = c.log)
    (hs : c'.now.settings = c.now.settings) : Strides c c' :=
  .single ⟨.own, trivial, .rest (.of_eq ht hl), hs⟩

theorem Starts.stride (h : Starts c c') : Stride c c' :=
  ⟨.own, trivial, .rest h.bypasses, h.extends.settings⟩

theorem Quiet.strides (h : Quiet c c') : Strides c c' := by
  cases h with
  | step h => exact h.strides trivial
  | handle h => exact .single ⟨.own, trivial, h.touch, (Quiet.handle h).settings⟩
  | identWait | identDone => exact .still rfl rfl rfl

theorem Turn.strides (h : Turn c c') : Strides c c' := by
  cases h with
  | quiet h => exact h.strides
  | packet h hs => exact (Quiet.handle h).strides.trans (Trail.strides hs.trail)

theorem Turns.strides (h : Turns c c') : Strides c c' := by
  induction h with
  | refl => exact .refl
  | tail _ hlast ih => exact ih.trans hlast.strides

/-- A call is made of strides, unless the session ends there. -/
theorem Link.callEnd_strides (hwf : WellFormed c) (h : Link.callEnd call c = some c')
    (hp : call.Polite c.now) : Strides c c' := by
  rcases Link.callEnd_cases h with ⟨rfl, a, hok⟩ | ⟨hin, hrecv, hend⟩
  · exact ((processIn_sat c hwf).of_ok hok).strides
  have hcalled := call.run_called c hwf hin hrecv
  rcases Outcome.state?_eq_some hend with ⟨a, hok⟩ | ⟨e, herr⟩
  · exact (hcalled.of_ok hok).strides hp
  · exact (hcalled.of_err herr).strides hp

end Calls

end Ssproxy
