/-
  Ssproxy.Pair.Silence

  What is queued for a channel after its CHANNEL_CLOSE.  EOF, CLOSE and data
  look at the flags of the channel; `maybe_adjust`, `on_channel_request` and
  `confirm_open` do not.  So a channel that is closed is silent as long as none
  of the three is reached on it.
-/

import Ssproxy.Lives
import Ssproxy.Stall
import Ssproxy.Pair.Strokes
import Ssproxy.Pair.Sync

namespace Ssproxy

open Lib Wire Connection Relation

-- ============================================================================
-- The messages of a channel
-- ============================================================================

/-- Slot `id` was filled or emptied. -/
def Obs.turnsOver (id : UInt32) : Obs → Bool
  | opened j => j = id
  | freed j => j = id
  | _ => false

/-- What was queued on behalf of channel `id`. -/
def Obs.post (id : UInt32) : Obs → Option Bytes
  | queued _ owner p _ => if owner = some id then some p else none
  | _ => none

/-- What was queued for the channel that is in slot `id`. -/
def postsOf (id : UInt32) (log : List Obs) : List Bytes :=
  (since (Obs.turnsOver id) log).filterMap (Obs.post id)

/-- A CHANNEL_CLOSE was queued for the channel that is in slot `id`. -/
def Shut (id : UInt32) (log : List Obs) : Prop := ∃ p ∈ postsOf id log, IsMsg .channelClose p

instance (id : UInt32) (log : List Obs) : Decidable (Shut id log) :=
  inferInstanceAs (Decidable (∃ p ∈ postsOf id log, IsMsg .channelClose p))

/-- Whatever is queued for a channel in slot `id` after its CHANNEL_CLOSE has `P`. -/
def StaysShut (P : Bytes → Prop) (id : UInt32) (log : List Obs) : Prop :=
  ∀ pre b q w post, log = pre ++ .queued b (some id) q w :: post → Shut id pre → P q

/-- The observation says nothing about the channel in slot `id`. -/
def Obs.Still (id : UInt32) (o : Obs) : Prop := o.turnsOver id = false ∧ o.post id = none

/-- The channel in slot `id` stays, and no CHANNEL_CLOSE is queued for it. -/
def Obs.Unclosing (id : UInt32) (o : Obs) : Prop :=
  o.turnsOver id = false ∧ ∀ p ∈ o.post id, ¬IsMsg .channelClose p

section Posts

variable {P : Bytes → Prop} {id : UInt32} {l new before after : List Obs} {o : Obs}

theorem Obs.Still.unclosing (h : o.Still id) : o.Unclosing id := by
  refine ⟨h.1, fun p hp => ?_⟩
  rw [h.2] at hp
  cases hp

theorem Obs.Off.still (h : o.Off id) : o.Still id := by
  cases o with
  | queued b owner p w => exact ⟨rfl, if_neg h⟩
  | opened j => exact ⟨decide_eq_false h, rfl⟩
  | freed j => exact ⟨decide_eq_false h, rfl⟩
  | _ => exact ⟨rfl, rfl⟩

theorem postsOf_append (h : ∀ o ∈ new, o.turnsOver id = false) :
    postsOf id (l ++ new) = postsOf id l ++ new.filterMap (Obs.post id) := by
  rw [postsOf, since_append h, List.filterMap_append, postsOf]

theorem shut_append (h : ∀ o ∈ new, o.turnsOver id = false) :
    Shut id (l ++ new) ↔ Shut id l ∨ ∃ p ∈ new.filterMap (Obs.post id), IsMsg .channelClose p := by
  unfold Shut
  rw [postsOf_append h]
  simp only [List.mem_append, or_and_right, exists_or]

theorem shut_unclosing (h : ∀ o ∈ new, o.Unclosing id) : Shut id (l ++ new) ↔ Shut id l := by
  rw [shut_append fun o ho => (h o ho).1, or_iff_left]
  rintro ⟨p, hp, hm⟩
  obtain ⟨o, ho, hpost⟩ := List.mem_filterMap.mp hp
  exact (h o ho).2 p hpost hm

theorem shut_still (h : ∀ o ∈ new, o.Still id) : Shut id (l ++ new) ↔ Shut id l :=
  shut_unclosing fun o ho => (h o ho).unclosing

/-- A channel that is put into its slot is not closed, nor is one that has left. -/
theorem not_shut_turnsOver (ho : o.turnsOver id = true) (hafter : ∀ x ∈ after, x.Unclosing id) :
    ¬Shut id (l ++ o :: after) := by
  rintro ⟨p, hp, hm⟩
  rw [postsOf, since_segment ho fun x hx => (hafter x hx).1] at hp
  obtain ⟨x, hx, hpost⟩ := List.mem_filterMap.mp hp
  exact (hafter x hx).2 p hpost hm

theorem StaysShut.append (h : StaysShut P id l)
    (hnew : ∀ mid b q w post, new = mid ++ .queued b (some id) q w :: post →
      Shut id (l ++ mid) → P q) : StaysShut P id (l ++ new) := by
  intro pre b q w post heq hshut
  rcases split_append heq with ⟨post', hl⟩ | ⟨mid, rfl, hmid⟩
  · exact h pre b q w post' hl hshut
  · exact hnew mid b q w post hmid hshut

theorem StaysShut.still (h : StaysShut P id l) (hnew : ∀ o ∈ new, o.Still id) :
    StaysShut P id (l ++ new) := by
  refine h.append fun mid b q w post heq _ => ?_
  have hpost := (hnew (.queued b (some id) q w) (heq ▸ by simp)).2
  rw [Obs.post, if_pos rfl] at hpost
  cases hpost

theorem StaysShut.turnsOver (h : StaysShut P id l) (hbefore : ∀ x ∈ before, x.Still id)
    (ho : o.turnsOver id = true) (hafter : ∀ x ∈ after, x.Unclosing id) :
    StaysShut P id (l ++ (before ++ o :: after)) := by
  rw [← List.append_assoc]
  refine (h.still hbefore).append fun mid b q w post heq hshut => ?_
  cases mid with
  | nil =>
    obtain ⟨rfl, -⟩ := List.cons.inj heq
    cases ho
  | cons x mid =>
    rw [List.cons_append] at heq
    obtain ⟨rfl, rfl⟩ := List.cons.inj heq
    exact absurd hshut (not_shut_turnsOver ho fun x hx => hafter x (List.mem_append_left _ hx))

end Posts

variable {P : Bytes → Prop} {id : UInt32} {x : Connection} {k : Cause} {ch ch' : Channel}
  {new : List Obs} {c c' c1 : Conn} {p : Bytes}

/-- A message queued for the channel itself. -/
theorem post_queued {b : Connection} {w : Bytes} : (Obs.queued b (some id) p w).post id = some p :=
  if_pos rfl

-- ============================================================================
-- What an act queues
-- ============================================================================

/-- `maybe_adjust` has credit to grant on the channel. -/
def Channel.Owes (ch : Channel) : Prop :=
  ∃ add, ch.windowAdjustAmount () = .ok add () ∧ add ≠ 0

/-- The acts that queue a message for a channel without a look at its flags. -/
inductive Blurts (id : UInt32) (c : Connection) (ch : Channel) (k : Cause) (new : List Obs) :
    Prop where
  | adjust (hk : k = .adjust id) (hgate : c.kexBlocksApp = false) (hadd : ch.Owes)
  | confirm (hk : k = .call (.confirmOpen id))
      (hnew : ∀ q ∈ new.filterMap (Obs.post id), IsMsg .channelOpenConfirmation q)
  | reply {p : Bytes} (hk : k = .own) (hm : MsgType.channelRequest.code :: putU32 id <+: p)
      (hwant : requestWants p = true) (hnew : [.handled c p] <+: new)

/-- An act queues one message at most. -/
theorem Act.one_post (h : Act id x ch k ch' new) : (new.filterMap (Obs.post id)).length ≤ 1 := by
  cases h <;> simp [Obs.post, List.filterMap_cons]

theorem Act.not_turnsOver (h : Act id x ch k ch' new) : ∀ o ∈ new, o.turnsOver id = false := by
  cases h <;> simp [Obs.turnsOver]

/-- Before the message of an act there is none. -/
theorem Act.first_post (h : Act id x ch k ch' new) {mid post : List Obs} {b : Connection}
    {q w : Bytes} (heq : new = mid ++ .queued b (some id) q w :: post) :
    ∀ o ∈ mid, o.Still id := by
  intro o ho
  refine ⟨h.not_turnsOver o (heq ▸ List.mem_append_left _ ho), ?_⟩
  have hone := h.one_post
  rw [heq, List.filterMap_append, List.filterMap_cons_some post_queued, List.length_append,
    List.length_cons] at hone
  have hnil : mid.filterMap (Obs.post id) = [] := List.eq_nil_of_length_eq_zero (by omega)
  exact List.filterMap_eq_nil_iff.mp hnil o ho

/-- On a channel whose CLOSE is on the wire only three acts queue anything. -/
theorem Act.blurts (h : Act id x ch k ch' new) (hf : EndFlags ch) (hw : ch.wireClose = true) :
    new.filterMap (Obs.post id) = [] ∨ Blurts id x ch k new := by
  have heof : ch.wireEof = true := hf.close hw
  have hsent : ch.sentEof = true := hf.eof heof
  cases h with
  | wire hne hallow hgate hr =>
    have hlive := sentEof_of_allowance (List.length_pos_iff.mpr hne) hallow
    cases hsent.symm.trans hlive
  | flush hcan hp hne => cases hsent.symm.trans hcan.live
  | closeNow hgate hc hclose hr => cases hw.symm.trans hclose
  | emitEof hgate he hwire hr => cases heof.symm.trans hwire
  | emitClose hgate hc hclose hr => cases hw.symm.trans hclose
  | grant hgate hadd hpos hr => exact .inr (.adjust rfl hgate ⟨_, hadd, hpos⟩)
  | confirm hr =>
    refine .inr (.confirm rfl fun q hq => ?_)
    rw [List.filterMap_cons_some post_queued] at hq
    cases List.mem_singleton.mp hq
    rfl
  | reply hm hwant hr ht hb => exact .inr (.reply rfl hm hwant (List.prefix_append [_] _))
  | _ => exact .inl rfl

/-- The CLOSE of a channel is queued when its flag is set. -/
theorem Act.shut_of_flag (h : Act id x ch k ch' new) {l : List Obs} (hs : Shut id (l ++ new))
    (hl : ¬Shut id l) : ch.wireClose = false ∧ ch'.wireClose = true := by
  obtain ⟨q, hq, hm⟩ := ((shut_append h.not_turnsOver).mp hs).resolve_left hl
  -- no other message is a CLOSE
  have hnot : ∀ {m : MsgType} {rest w : Bytes} {b : Connection}, m ≠ .channelClose →
      q ∉ [Obs.queued b (some id) (m.code :: rest) w].filterMap (Obs.post id) := by
    intro m rest w b hne hq
    rw [List.filterMap_cons_some post_queued] at hq
    cases List.mem_singleton.mp hq
    have hown : IsMsg m (m.code :: rest) := rfl
    exact hne (hown.unique hm)
  cases h with
  | closeNow hgate hc hw hr => exact ⟨hw, rfl⟩
  | emitClose hgate hc hw hr => exact ⟨hw, rfl⟩
  | wire | flush | emitEof | grant | confirm => exact absurd hq (hnot (by decide))
  | reply hm' hwant hr ht hb =>
    rw [List.filterMap_cons_none rfl] at hq
    rcases ht with rfl | rfl
    · exact absurd hq (hnot (by decide))
    · exact absurd hq (hnot (by decide))
  | _ => cases hq

theorem Obs.unclosing_queued {b : Connection} {m : MsgType} {rest w : Bytes}
    (h : m ≠ .channelClose) : (Obs.queued b (some id) (m.code :: rest) w).Unclosing id := by
  refine ⟨rfl, fun q hq hm => ?_⟩
  have hown : IsMsg m (m.code :: rest) := rfl
  rw [post_queued, Option.mem_some_iff] at hq
  exact h (hown.unique (hq ▸ hm))

/-- What fills or empties a slot, and what is queued for the channel after it. -/
def Turnover (id : UInt32) (new : List Obs) : Prop := ∃ before o after, new = before ++ o :: after ∧
  (∀ x ∈ before, x.Still id) ∧ o.turnsOver id = true ∧ ∀ x ∈ after, x.Unclosing id

theorem turnover_cons {o : Obs} {after : List Obs} (ho : o.turnsOver id = true)
    (hafter : ∀ x ∈ after, x.Unclosing id) : Turnover id (o :: after) :=
  ⟨[], o, after, rfl, fun _ hx => absurd hx List.not_mem_nil, ho, hafter⟩

theorem turnover_handled {b : Connection} {o : Obs} {ev : Event} (ho : o.turnsOver id = true) :
    Turnover id [.handled b p, o, .emitted ev] := by
  refine ⟨[.handled b p], o, [.emitted ev], rfl, fun x hx => ?_, ho, fun x hx => ?_⟩
  · rw [List.mem_singleton.mp hx]
    exact ⟨rfl, rfl⟩
  · rw [List.mem_singleton.mp hx]
    exact Obs.Still.unclosing ⟨rfl, rfl⟩

theorem Fresh.turnover (h : Fresh id x k ch new) : Turnover id new := by
  have ho : (Obs.opened id).turnsOver id = true := decide_eq_true rfl
  cases h with
  | peer hm hev => exact turnover_handled ho
  | here hrole hnew =>
    refine turnover_cons ho fun o hmem => ?_
    obtain ⟨b, w, rfl⟩ := hnew o hmem
    exact Obs.unclosing_queued (by decide)

theorem Leaves.turnover (h : Leaves id x ch k new) : Turnover id new := by
  have ho : (Obs.freed id).turnsOver id = true := decide_eq_true rfl
  cases h with
  | closed hg hw => exact turnover_cons ho fun _ hx => absurd hx List.not_mem_nil
  | failed hr hnew =>
    refine turnover_cons ho fun o hmem => ?_
    obtain ⟨b, w, rfl⟩ := hnew o hmem
    exact Obs.unclosing_queued (by decide)
  | refused hm => exact turnover_handled ho

-- ============================================================================
-- One slot
-- ============================================================================

/-- The channel in slot `id`, if there is one: nothing without `P` was queued for
    it after its CLOSE, and its flags know of that. -/
structure ShutOk (P : Bytes → Prop) (id : UInt32) (c : Conn) : Prop where
  stays : StaysShut P id c.log
  flag : Shut id c.log → ∀ ch, c.now.channels.get? id = some ch → ch.wireClose = true
  ends : ∀ ch, c.now.channels.get? id = some ch → EndFlags ch

theorem Act.keepsClose (h : Act id x ch k ch' new) (hw : ch.wireClose = true) :
    ch'.wireClose = true := by
  cases h with
  | closeSilent | closeNow | emitCloseSilent | emitClose => rfl
  | _ => exact hw

theorem SlotStep.shutOk (hs : SlotStep id k c c') (h : ShutOk P id c)
    (hblurt : ∀ ch new, c.now.channels.get? id = some ch → Blurts id c.now ch k new →
      c'.log = c.log ++ new → Shut id c.log → ∀ q ∈ new.filterMap (Obs.post id), P q) :
    ShutOk P id c' := by
  cases hs with
  | idle hget hlog hnew =>
    have hstill := fun o ho => (hnew o ho).still
    refine ⟨?_, fun hshut ch hch => ?_, fun ch hch => h.ends ch (hget ▸ hch)⟩
    · rw [hlog]
      exact h.stays.still hstill
    · rw [hlog, shut_still hstill] at hshut
      exact h.flag hshut ch (hget ▸ hch)
  | @act ch ch' new hch hch' ha hlog =>
    have hends := h.ends ch hch
    refine ⟨?_, fun hshut ch1 hch1 => ?_, fun ch1 hch1 => ?_⟩
    · rw [hlog]
      refine h.stays.append fun mid b q w post heq hshut => ?_
      have hold : Shut id c.log := (shut_still (ha.first_post heq)).mp hshut
      have hq : q ∈ new.filterMap (Obs.post id) := by
        rw [heq, List.filterMap_append, List.filterMap_cons_some post_queued]
        exact List.mem_append_right _ List.mem_cons_self
      rcases ha.blurts hends (h.flag hold ch hch) with hnil | hb
      · rw [hnil] at hq
        cases hq
      · exact hblurt ch new hch hb hlog hold q hq
    · cases hch'.symm.trans hch1
      by_cases hold : Shut id c.log
      · exact ha.keepsClose (h.flag hold ch hch)
      · rw [hlog] at hshut
        exact (ha.shut_of_flag hshut hold).2
    · cases hch'.symm.trans hch1
      exact ha.endFlags hends
  | enter hch' hf hlog =>
    obtain ⟨before, o, after, rfl, hbefore, ho, hafter⟩ := hf.turnover
    refine ⟨?_, fun hshut => ?_, fun ch1 hch1 => ?_⟩
    · rw [hlog]
      exact h.stays.turnsOver hbefore ho hafter
    · rw [hlog, ← List.append_assoc] at hshut
      exact absurd hshut (not_shut_turnsOver ho hafter)
    · cases hch'.symm.trans hch1
      exact hf.endFlags
  | leave hch hnone hl hlog =>
    obtain ⟨before, o, after, rfl, hbefore, ho, hafter⟩ := hl.turnover
    refine ⟨?_, fun _ ch1 hch1 => ?_, fun ch1 hch1 => ?_⟩
    · rw [hlog]
      exact h.stays.turnsOver hbefore ho hafter
    · cases hnone.symm.trans hch1
    · cases hnone.symm.trans hch1

/-- A channel that stays as it is was not closed in between. -/
theorem SlotStep.shut_of_same (hs : SlotStep id k c c')
    (hget : c'.now.channels.get? id = c.now.channels.get? id) (hshut : Shut id c'.log) :
    Shut id c.log := by
  cases hs with
  | idle _ hlog hnew =>
    rw [hlog] at hshut
    exact (shut_still fun o ho => (hnew o ho).still).mp hshut
  | act hch hch' ha hlog =>
    by_contra hold
    rw [hlog] at hshut
    obtain ⟨hoff, hon⟩ := ha.shut_of_flag hshut hold
    rw [hch', hch] at hget
    cases hget
    cases hoff.symm.trans hon
  | enter hch' hf hlog =>
    obtain ⟨before, o, after, rfl, hbefore, ho, hafter⟩ := hf.turnover
    rw [hlog, ← List.append_assoc] at hshut
    exact absurd hshut (not_shut_turnsOver ho hafter)
  | leave hch hnone hl hlog =>
    obtain ⟨before, o, after, rfl, hbefore, ho, hafter⟩ := hl.turnover
    rw [hlog, ← List.append_assoc] at hshut
    exact absurd hshut (not_shut_turnsOver ho hafter)

variable [CryptoLib]

-- ============================================================================
-- The steps and turns of a connection
-- ============================================================================

omit [CryptoLib] in
/-- Nothing was received: then none of the acts of a packet. -/
theorem Later.no_handled {l l' : List Obs} {b : Connection} (h : Later l l')
    (hl : l' = l ++ new) : ¬[.handled b p] <+: new := by
  obtain ⟨new', hl', hnew⟩ := h
  obtain rfl := List.append_cancel_left (hl.symm.trans hl')
  rintro ⟨rest, rfl⟩
  cases hnew (.handled b p) List.mem_cons_self

omit [CryptoLib] in
theorem Later.tail {l l1 l' : List Obs} (h : Later l l') (h1 : l <+: l1) (h2 : l1 <+: l') :
    Later l l1 ∧ Later l1 l' := by
  obtain ⟨new1, rfl⟩ := h1
  obtain ⟨new2, rfl⟩ := h2
  obtain ⟨new, hl, hnew⟩ := h
  rw [List.append_assoc] at hl
  obtain rfl := List.append_cancel_left hl
  exact ⟨⟨new1, rfl, fun o ho => hnew o (List.mem_append_left _ ho)⟩,
    ⟨new2, rfl, fun o ho => hnew o (List.mem_append_right _ ho)⟩⟩

omit [CryptoLib] in
/-- Steps of the slot that are neither a grant nor a confirmation, with nothing
    received. -/
theorem SlotSteps.shutOk {K : Cause → Prop} (hs : SlotSteps id K c c') (hlater : Later c.log c'.log)
    (hadj : ¬K (.adjust id)) (hconf : ¬K (.call (.confirmOpen id))) (h : ShutOk P id c) :
    ShutOk P id c' := by
  induction hs with
  | refl => exact h
  | @tail c1 c2 hpre hlast ih =>
    obtain ⟨k, hk, hstep⟩ := hlast
    obtain ⟨hlater1, hlater2⟩ := hlater.tail (SlotSteps.log hpre) hstep.log
    refine hstep.shutOk (ih hlater1) fun ch new _ hb hlog _ => ?_
    cases hb with
    | adjust hk' => exact absurd (hk' ▸ hk) hadj
    | confirm hk' => exact absurd (hk' ▸ hk) hconf
    | reply hk' hm hwant hnew => exact absurd hnew (hlater2.no_handled hlog)

theorem Step.shutOk (hs : Step k c c') (hwf : WellFormed c) (hadj : k ≠ .adjust id)
    (hconf : k = .call (.confirmOpen id) → Shut id c.log →
      ∀ q, IsMsg .channelOpenConfirmation q → P q) (h : ShutOk P id c) : ShutOk P id c' := by
  by_cases hk : k = .call (.confirmOpen id)
  · subst hk
    refine (hs.slot hwf.table nofun).shutOk h fun ch new _ hb _ hshut q hq => ?_
    cases hb with
    | adjust hk => cases hk
    | confirm hk hnew => exact hconf rfl hshut q (hnew q hq)
    | reply hk => cases hk
  · exact (hs.slots hwf.table (P := (· = k)) rfl).shutOk hs.extends.log.later (Ne.symm hadj)
      (Ne.symm hk) h

theorem Steps.shutOk (hs : Steps c c') (hwf : WellFormed c) (h : ShutOk P id c) :
    ShutOk P id c' := by
  induction hs with
  | refl => exact h
  | tail hpre hlast ih =>
    exact hlast.shutOk (Trail.wellFormed (Steps.trail hpre) hwf) nofun nofun ih

theorem Adjusts.shutOk {j : UInt32} (ha : Adjusts j c c') (hwf : WellFormed c)
    (howes : j = id → c.now.kexBlocksApp = false → ∀ ch, c.now.channels.get? id = some ch →
      ch.Owes → ¬Shut id c.log) (h : ShutOk P id c) : ShutOk P id c' := by
  cases ha with
  | none => exact h
  | grant hs =>
    refine (hs.slot hwf.table nofun).shutOk h fun ch new hch hb _ hshut => ?_
    cases hb with
    | adjust hk hgate hadd =>
      cases hk
      exact absurd hshut (howes rfl hgate ch hch hadd)
    | confirm hk => cases hk
    | reply hk => cases hk

/-- The slot has not been touched: its channel is the same, and was not closed. -/
def Bypassed (id : UInt32) (c c' : Conn) : Prop :=
  c'.now.channels.get? id = c.now.channels.get? id ∧ (Shut id c'.log → Shut id c.log)

theorem Adjusts.bypassed {j : UInt32} (ha : Adjusts j c c') (hwf : WellFormed c) (hj : id ≠ j) :
    Bypassed id c c' := by
  cases ha with
  | none => exact ⟨rfl, fun h => h⟩
  | grant hs =>
    have hget : c'.now.channels.get? id = c.now.channels.get? id := by
      cases hs with
      | grantSilent hgate hch hadd hpos hr => exact ChannelTable.get?_set_ne hj
      | grant hgate hch hadd hpos hr hq =>
        rw [hq.channels]
        exact ChannelTable.get?_set_ne hj
    exact ⟨hget, (hs.slot hwf.table nofun).shut_of_same hget⟩

theorem StepsAt.bypassed {j : UInt32} (hs : StepsAt j c c') (hwf : WellFormed c) (hj : id ≠ j) :
    Bypassed id c c' := by
  induction hs with
  | refl => exact ⟨rfl, fun h => h⟩
  | @tail c1 c2 hpre hlast ih =>
    have hwf1 := Trail.wellFormed (StepsAt.trail hpre) hwf
    have hget := hlast.2 id hj
    exact ⟨hget.trans ih.1, fun h => ih.2 ((hlast.1.slot hwf1.table nofun).shut_of_same hget h)⟩

/-- `flush_post_rekey` visits every channel once, and grants before all else. -/
theorem Replays.shutOk {ids : List UInt32} (hr : Replays ids c c') (hnodup : ids.Nodup)
    (hwf : WellFormed c) (howes : id ∈ ids → ∀ ch, c.now.channels.get? id = some ch →
      ch.Owes → ¬Shut id c.log) (h : ShutOk P id c) : ShutOk P id c' := by
  induction hr with
  | done c => exact h
  | @next c c1 c2 c' j ids ha hs ht ih =>
    obtain ⟨hj, hnodup⟩ := List.nodup_cons.mp hnodup
    have hwf1 := Trail.wellFormed ha.trail hwf
    have hwf2 := Trail.wellFormed (StepsAt.trail hs) hwf1
    have hown : Steps c1 c2 := ReflTransGen.mono (fun _ _ h => h.1) _ _ hs
    have h1 : ShutOk P id c1 := ha.shutOk hwf (fun heq _ => howes (heq ▸ List.mem_cons_self)) h
    refine ih hnodup hwf2 (fun hmem ch hch hadd hshut => ?_) (Steps.shutOk hown hwf1 h1)
    have hne : id ≠ j := fun heq => hj (heq ▸ hmem)
    have hleft := ha.bypassed hwf hne
    have hright := StepsAt.bypassed hs hwf1 hne
    rw [hright.1, hleft.1] at hch
    exact howes (List.mem_cons_of_mem _ hmem) ch hch hadd (hleft.2 (hright.2 hshut))

theorem Handles.shutOk (hh : Handles p c c') (hwf : WellFormed c)
    (hquiet : Shut id c.log → MsgType.channelRequest.code :: putU32 id <+: p →
      requestWants p = false) (h : ShutOk P id c) : ShutOk P id c' := by
  refine (hh.slot hwf.table).shutOk h fun ch new _ hb hlog hshut => ?_
  cases hb with
  | adjust hk => cases hk
  | confirm hk => cases hk
  | reply hk hm hwant hnew =>
    have hp := hh.log
    rw [hlog, List.prefix_append_right_inj] at hp
    obtain ⟨rest, rfl⟩ := hnew
    cases (List.cons_prefix_cons.mp hp).1
    cases (hquiet hshut hm).symm.trans hwant

omit [CryptoLib] in
theorem Skirts.shutOk (hs : Skirts id c c') (h : ShutOk P id c) : ShutOk P id c' :=
  (hs.step (k := .own)).shutOk h fun _ _ _ hb hlog _ => by
    obtain ⟨new, hl, hoff⟩ := hs.log
    obtain rfl := List.append_cancel_left (hlog.symm.trans hl)
    intro q hq
    obtain ⟨o, ho, hpost⟩ := List.mem_filterMap.mp hq
    cases ((hoff o ho).still.2).symm.trans hpost

-- ============================================================================
-- Whole runs
-- ============================================================================

/-- What a closed channel answers: a CHANNEL_REQUEST, and the end of a rekey if
    it is owed credit. -/
inductive Obs.Wakes (log : List Obs) : Obs → Prop where
  | request {b : Connection} {p : Bytes} {id : UInt32} (hs : Shut id log)
      (hm : MsgType.channelRequest.code :: putU32 id <+: p) (hwant : requestWants p = true) :
      Wakes log (.handled b p)
  | rekeyed {before : Connection} {id : UInt32} {ch : Channel} (hs : Shut id log)
      (hf : before.firstKexDone = true) (hch : before.channels.get? id = some ch)
      (hadd : ch.Owes) : Wakes log (.kexCompleted before)

/-- None of it has happened. -/
def Unwoken (log : List Obs) : Prop := ∀ pre o post, log = pre ++ o :: post → ¬o.Wakes pre

omit [CryptoLib] in
theorem Unwoken.of_prefix {l l' : List Obs} (h : Unwoken l') (hl : l <+: l') :
    Unwoken l := by
  obtain ⟨new, rfl⟩ := hl
  intro pre o post heq
  refine h pre o (post ++ new) ?_
  rw [heq, List.append_assoc, List.cons_append]

/-- `consume_inbound` of `n` bytes would grant credit on a channel whose CLOSE
    was queued. -/
def Regrants (c : Conn) (id : UInt32) (n : Nat) : Prop :=
  Shut id c.log ∧ c.now.kexBlocksApp = false ∧ ∃ ch front queue,
    c.now.channels.get? id = some ch ∧ ch.inQ = front :: queue ∧ (consumed ch front queue n).Owes

theorem Turn.shutOk (ht : Turn c c') (hwf : WellFormed c) (htable : c.now.channels.Represents)
    (hU : Unwoken c'.log) (h : ShutOk P id c) : ShutOk P id c' := by
  have hhandle : ∀ {p c1}, Handles p c c1 → c1.log <+: c'.log → ShutOk P id c1 := by
    intro p c1 hh hl
    refine hh.shutOk hwf (fun hshut hm => ?_) h
    obtain ⟨post, hpost⟩ := hh.log.trans hl
    rw [List.append_assoc] at hpost
    cases hwant : requestWants p with
    | false => rfl
    | true => exact absurd (.request hshut hm hwant) (hU _ _ _ hpost.symm)
  cases ht with
  | quiet hq =>
    cases hq with
    | step hs => exact hs.shutOk hwf nofun nofun h
    | handle hh => exact hhandle hh List.prefix_rfl
    | identWait hid hno => exact Skirts.shutOk (c := c) (.of_eq rfl rfl) h
    | identDone hid hs => exact Skirts.shutOk (c := c) (.of_eq rfl rfl) h
  | packet hh hs =>
    have hgrown := hs.trail.extends.log.isPrefix
    have h1 := hhandle hh hgrown
    have hwf1 := hh.wellFormed hwf
    cases hs with
    | steps hs => exact Steps.shutOk hs hwf1 h1
    | @replay l before c2 hlog hf hch hr hs =>
      have hwf2 := Trail.wellFormed hr.trail hwf1
      refine Steps.shutOk hs hwf2 (hr.shutOk ?_ hwf1 (fun _ ch hget hadd hshut => ?_) h1)
      · exact (hh.touch.represents htable).nodup_iterIds
      · -- the exchange that completed was a later one
        obtain ⟨post, hpost⟩ := hgrown
        rw [hlog, List.append_assoc] at hpost
        have hstill : ∀ o ∈ [Obs.kexCompleted before], o.Still id := by
          intro o ho
          rw [List.mem_singleton.mp ho]
          exact ⟨rfl, rfl⟩
        rw [hlog, shut_still hstill] at hshut
        exact hU l _ _ hpost.symm (.rekeyed hshut hf (hch ▸ hget) hadd)

theorem Called.shutOk {call : Call} (hcalled : Called call c c') (hwf : WellFormed c)
    (hgrant : ∀ n, call = .consumeInbound id n → ¬Regrants c id n)
    (hconf : call = .confirmOpen id → Shut id c.log →
      ∀ q, IsMsg .channelOpenConfirmation q → P q) (h : ShutOk P id c) : ShutOk P id c' := by
  cases hcalled with
  | own hs hsteps =>
    have h1 := hs.shutOk hwf nofun (fun hk => hconf (Cause.call.inj hk)) h
    exact Steps.shutOk hsteps (hs.wellFormed hwf) h1
  | @consume c1 i m hcall hs ha =>
    subst hcall
    have h1 := hs.shutOk hwf nofun nofun h
    refine ha.shutOk (hs.wellFormed hwf) (fun heq hgate ch hch hadd hshut => ?_) h1
    subst heq
    cases hs with
    | @consume _ _ ch0 front queue _ hch0 hq =>
      have hself : (c.now.channels.set i (consumed ch0 front queue m)).get? i
          = some (consumed ch0 front queue m) := ChannelTable.get?_set_self hch0
      cases hself.symm.trans hch
      exact hgrant m rfl ⟨hshut, hgate, _, _, _, hch0, hq, hadd⟩
  | other hsteps => exact Steps.shutOk hsteps hwf h

namespace Setup

variable {setup : Setup} {rng : Rng} {calls : List Call}

end Setup

-- ============================================================================
-- The ends of a link
-- ============================================================================

namespace Link

end Link

namespace Toy

/-- The server takes three bytes, closes the channel, and hands them out after that. -/
def closing : List Link.Act :=
  deliveries ++ .call .client (.openDirectTcpip "a" 80) :: deliver .server ++
    .call .server (.confirmOpen 0) :: deliver .client ++
    .call .client (.sendData 0 [1, 2, 3]) :: deliver .server ++
    [.call .server (.sendClose 0), .call .server (.consumeInbound 0 3)]

/-- No credit is due after the call, and the channel it confirms is not closed. -/
def quiet (c : Conn) : Call → Bool
  | .confirmOpen id => !decide (Shut id c.log)
  | .consumeInbound id n =>
      (c.now.channels.get? id).all fun ch => match ch.inQ with
        | [] => true
        | front :: queue => ((consumed ch front queue n).windowAdjustAmount ()).value? == some 0
  | _ => true

/-- What was received is for a channel that does not exist. -/
def strays (c : Conn) : Bool :=
  match @processIn lib c with
  | .err e _ => decide (e = .protocol "no such channel")
  | _ => false

end Toy

end Ssproxy
