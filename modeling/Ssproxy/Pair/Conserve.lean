/-
  Ssproxy.Pair.Conserve

  Flow control between a server and a client of this program.  As long as no
  channel is closed, every run of a link is a run of a trunk (`run_refines`).  So
  on every confirmed channel the window of one end is the window of the other and
  what is on the way (`run_conserves`), what is on the way finds its channel and
  fits (`run_fits`), and what is handled finds room (`run_balanced`).
-/

import Ssproxy.Pair.Strides
import Ssproxy.Pair.Sync

namespace Ssproxy

open Lib Wire Connection Relation

open Trunk (Stroke)

-- ============================================================================
-- Two connections as a trunk
-- ============================================================================

/-- The parcels that `a` has sent and `b` has not handled. -/
def freight (a b : Conn) : List (Parcel UInt32) :=
  ((sentPayloads a.log).drop (payloads b.log).length).filterMap parcel

/-- Two connections as one trunk. -/
def trunkOf (x : End → Conn) : Trunk UInt32 where
  lanes e := (x e).now.lanes
  mail e := freight (x e.other) (x e)

section Refinement

variable {x : End → Conn} {e : End} {a b y : Conn} {taken posted : List Bytes}

/-- What was handled is no longer on the way. -/
theorem Traffic.freight_in (h : Traffic taken posted a y)
    (hin : payloads y.log <+: sentPayloads b.log) :
    freight b a = taken.filterMap parcel ++ freight b y := by
  obtain ⟨new, hlog, htaken, -⟩ := h.log
  obtain ⟨rest, hrest⟩ := hin
  rw [hlog, payloads_append, htaken] at hrest
  have hold : (sentPayloads b.log).drop (payloads a.log).length = taken ++ rest := by
    rw [← hrest, List.append_assoc, List.drop_left]
  have hnew : (sentPayloads b.log).drop (payloads y.log).length = rest := by
    rw [hlog, payloads_append, htaken, ← hrest, List.drop_left]
  rw [freight, freight, hold, hnew, List.filterMap_append]

/-- What was sent is on the way. -/
theorem Traffic.freight_out (h : Traffic taken posted a y)
    (hout : payloads b.log <+: sentPayloads a.log) :
    freight y b = freight a b ++ posted.filterMap parcel := by
  obtain ⟨new, hlog, -, hposted⟩ := h.log
  rw [freight, hlog, sentPayloads_append, hposted, List.drop_append_of_le_length hout.length_le,
    List.filterMap_append, freight]

theorem trunkOf_update (x : End → Conn) (e : End) (y : Conn) :
    (trunkOf (Function.update x e y)).lanes e = y.now.lanes ∧
      (trunkOf (Function.update x e y)).lanes e.other = (trunkOf x).lanes e.other ∧
      (trunkOf (Function.update x e y)).mail e = freight (x e.other) y ∧
      (trunkOf (Function.update x e y)).mail e.other = freight y (x e.other) := by
  have hother : Function.update x e y e.other = x e.other :=
    Function.update_of_ne e.other_ne y x
  have hself : Function.update x e y e = y := Function.update_self e y x
  refine ⟨?_, ?_, ?_, ?_⟩
  · show (Function.update x e y e).now.lanes = _
    rw [hself]
  · show (Function.update x e y e.other).now.lanes = _
    rw [hother]
    rfl
  · show freight (Function.update x e y e.other) (Function.update x e y e) = _
    rw [hself, hother]
  · show freight (Function.update x e y e.other.other) (Function.update x e y e.other) = _
    rw [hother, End.other_other, hself]

/-- A pulse of one end is a step of the trunk, or none. -/
theorem Pulse.refines (h : Pulse (x e) y) (hport : (x e).now.role.port = e)
    (hin : payloads y.log <+: sentPayloads (x e.other).log)
    (hout : payloads (x e.other).log <+: sentPayloads (x e).log) :
    ReflTransGen (Trunk.Step maxWindow) (trunkOf x) (trunkOf (Function.update x e y)) := by
  obtain ⟨hself, hother, hmail, hback⟩ := trunkOf_update x e y
  have hbefore : (trunkOf x).mail e = freight (x e.other) (x e) := rfl
  have hbehind : (trunkOf x).mail e.other = freight (x e) (x e.other) := by
    show freight (x e.other.other) (x e.other) = _
    rw [End.other_other]
  cases h with
  | @rest taken posted ht hl htaken hposted =>
    have hnone : taken.filterMap parcel = [] := List.filterMap_eq_nil_iff.mpr htaken
    have hquiet : posted.filterMap parcel = [] :=
      List.filterMap_eq_nil_iff.mpr fun q hq => parcel_flowFree (hposted q hq)
    have hsame : trunkOf (Function.update x e y) = trunkOf x := by
      apply Trunk.ext_of_end e
      · exact hself.trans hl
      · exact hother
      · rw [hmail, hbefore, ht.freight_in hin, hnone, List.nil_append]
      · rw [hback, hbehind, ht.freight_out hout, hquiet, List.append_nil]
    rw [hsame]
  | @stroke taken posted id new ht hl hs htaken hposted =>
    have hbind : taken.toList.filterMap parcel = (taken.bind parcel).toList := by
      cases taken with
      | none => rfl
      | some p =>
        show [p].filterMap parcel = (parcel p).toList
        cases hp : parcel p with
        | none => exact List.filterMap_cons_none hp
        | some d => exact List.filterMap_cons_some hp
    have htake : (trunkOf x).mail e = (taken.bind parcel).toList ++ freight (x e.other) y := by
      rw [hbefore, ht.freight_in hin, hbind]
    rw [hport] at hs
    refine .single (Trunk.Step.of_end htake hs (hself.trans hl) hother hmail ?_)
    rw [hback, hbehind, ht.freight_out hout]

end Refinement

-- ============================================================================
-- What every move keeps
-- ============================================================================

/-- A connection as end `e`. -/
structure Berth (e : End) (c : Conn) : Prop where
  port : c.now.role.port = e
  limits : c.now.writeSoft ≤ c.now.writeHard
  table : c.now.channels.Represents
  live : ∀ id ch, c.now.channels.get? id = some ch → ch.gotClose = false

/-- The invariant of two connections. -/
structure Laden (x : End → Conn) : Prop where
  berth : ∀ e, Berth e (x e)
  sound : (trunkOf x).Sound maxWindow

theorem Berth.stride {e : End} {c c' : Conn} (h : Berth e c) (hs : Stride c c')
    (hc : Candid c'.log) : Berth e c' := by
  obtain ⟨k, hk, ht, hset⟩ := hs
  have hrole : c'.now.role = c.now.role := congrArg (·.role) hset
  have hsoft : c'.now.writeSoft = c.now.writeSoft := congrArg (·.writeSoft) hset
  have hhard : c'.now.writeHard = c.now.writeHard := congrArg (·.writeHard) hset
  refine ⟨hrole ▸ h.port, ?_, ht.represents h.table, fun id => ?_⟩
  · rw [hsoft, hhard]
    exact h.limits
  · have hslot : SlotStep id k c c' := ht.slot h.table.tableOk
    refine hslot.keeps (G := fun o => ∀ b p, o = .handled b p → ¬IsMsg .channelClose p) ?_ ?_ (h.live id) ?_
    · intro _ _ _ _ hf _
      cases hf <;> rfl
    · intro _ _ _ _ _ _ hopen ha hG
      cases ha with
      | peerClose hm => exact absurd (IsMsg.of_prefix hm) (hG _ List.mem_cons_self _ _ rfl)
      | _ => exact hopen
    · rintro o ho b p rfl
      exact hc.unclosed b p ho

section Kept

variable {x : End → Conn} {e : End} {y : Conn}

theorem payloads_mono {l l' : List Obs} (h : l <+: l') : payloads l <+: payloads l' := by
  obtain ⟨new, rfl⟩ := h
  rw [payloads_append]
  exact List.prefix_append _ _

theorem sentPayloads_mono {l l' : List Obs} (h : l <+: l') : sentPayloads l <+: sentPayloads l' := by
  obtain ⟨new, rfl⟩ := h
  rw [sentPayloads_append]
  exact List.prefix_append _ _

theorem Laden.poised (h : Laden x) (hc : Candid y.log)
    (hin : payloads y.log <+: sentPayloads (x e.other).log) : Poised (x e) y where
  toCandid := hc
  table := (h.berth e).table
  limits := (h.berth e).limits
  live := (h.berth e).live
  confirmed id ch hrole hch hr := by
    have he : e = .opener := (h.berth e).port.symm.trans (Role.port_eq_opener.mpr hrole)
    subst he
    obtain ⟨r, hr⟩ := Option.ne_none_iff_exists'.mp hr
    exact h.sound.confirmed_of_known (lanes_of_get? hch) hr
  full id ch hch hr := UInt32.toNat_inj.mp (h.sound.full (lanes_of_get? hch) hr)
  addressed new hlog p hp d hd := by
    rw [(h.berth e).port]
    apply h.sound.addressed
    obtain ⟨rest, hrest⟩ := hin
    apply List.mem_filterMap.mpr
    refine ⟨p, ?_, hd⟩
    show p ∈ (sentPayloads (x e.other).log).drop (payloads (x e).log).length
    rw [← hrest, hlog, payloads_append, List.append_assoc, List.drop_left]
    exact List.mem_append_left _ hp

/-- One move of one end. -/
theorem Laden.stride (h : Laden x) (hs : Stride (x e) y) (hc : Candid y.log)
    (hin : payloads y.log <+: sentPayloads (x e.other).log)
    (hout : payloads (x e.other).log <+: sentPayloads (x e).log) :
    Laden (Function.update x e y) ∧
      ReflTransGen (Trunk.Step maxWindow) (trunkOf x) (trunkOf (Function.update x e y)) := by
  have hsteps : ReflTransGen (Trunk.Step maxWindow) (trunkOf x)
      (trunkOf (Function.update x e y)) := by
    obtain ⟨k, hk, ht, -⟩ := hs
    exact (ht.pulse (h.poised hc hin) hk).refines (h.berth e).port hin hout
  refine ⟨⟨fun e' => ?_, Trunk.steps_sound hsteps h.sound⟩, hsteps⟩
  by_cases he : e' = e
  · subst he
    rw [Function.update_self]
    exact (h.berth e').stride hs hc
  · rw [Function.update_of_ne he]
    exact h.berth e'

/-- The moves of one end, while the other rests. -/
theorem Laden.strides (h : Laden x) (hs : Strides (x e) y) (hc : Candid y.log)
    (hin : payloads y.log <+: sentPayloads (x e.other).log)
    (hout : payloads (x e.other).log <+: sentPayloads (x e).log) :
    Laden (Function.update x e y) ∧
      ReflTransGen (Trunk.Step maxWindow) (trunkOf x) (trunkOf (Function.update x e y)) := by
  induction hs with
  | refl =>
    rw [Function.update_eq_self]
    exact ⟨h, .refl⟩
  | @tail y y' hpre hlast ih =>
    have hgrown : y.log <+: y'.log := Strides.log (.single hlast)
    obtain ⟨hladen, hsteps⟩ := ih (hc.mono hgrown) ((payloads_mono hgrown).trans hin)
    have hself : Function.update x e y e = y := Function.update_self e y x
    have hother : Function.update x e y e.other = x e.other := Function.update_of_ne e.other_ne y x
    have hlast' : Stride (Function.update x e y e) y' := hself.symm ▸ hlast
    obtain ⟨hladen', hsteps'⟩ := hladen.stride hlast' hc (hother.symm ▸ hin) (by
      rw [hother, hself]
      exact hout.trans (sentPayloads_mono (Strides.log hpre)))
    rw [Function.update_idem] at hladen' hsteps'
    exact ⟨hladen', hsteps.trans hsteps'⟩

end Kept

-- ============================================================================
-- Room for what comes
-- ============================================================================

/-- On the channel that `p` is for there is room for it: `push_in` takes the data,
    and the credit is added in full. -/
structure Roomy (c : Connection) (p : Bytes) : Prop where
  data : ∀ id data ch, (Msg.channelData id data <+: p ∨
      ∃ code, MsgType.channelExtendedData.code :: (putU32 id ++ putU32 code ++ putBytes data) <+: p) →
    c.channels.get? id = some ch → ∃ ch', Channel.pushIn data ch = .ok () ch'
  credit : ∀ id add ch, Msg.windowAdjust id add <+: p → c.channels.get? id = some ch →
    (saturatingAdd32 ch.sendWindow add).toNat = ch.sendWindow.toNat + add.toNat

/-- Of all that was handled. -/
def AllRoomy (log : List Obs) : Prop := ∀ b p, Obs.handled b p ∈ log → Roomy b p

theorem allRoomy_of_quiet {log : List Obs} (h : payloads log = []) : AllRoomy log := by
  intro b p hmem
  have hp : p ∈ payloads log := List.mem_map.mpr ⟨(b, p), mem_handledPackets.mpr hmem, rfl⟩
  rw [h] at hp
  cases hp

theorem AllRoomy.later {l l' : List Obs} (h : AllRoomy l) (hl : Later l l') : AllRoomy l' :=
  fun b p hmem => h b p (hl.mem_handled hmem)

section Room

variable {x : End → Conn} {e : End} {p : Bytes} {y : Conn}

/-- The packet that comes next finds room. -/
theorem Laden.roomy (h : Laden x) (hknown : Known p) (hlen : p.length < 2 ^ 32)
    (hnext : payloads (x e).log ++ [p] <+: sentPayloads (x e.other).log) :
    Roomy (x e).now p := by
  have hmail : ∀ d, parcel p = some d → ∃ mail, (trunkOf x).mail e = d :: mail := by
    intro d hd
    obtain ⟨rest, hrest⟩ := hnext
    refine ⟨rest.filterMap parcel, ?_⟩
    show ((sentPayloads (x e.other).log).drop (payloads (x e).log).length).filterMap parcel = _
    rw [← hrest, List.append_assoc, List.drop_left, List.singleton_append,
      List.filterMap_cons_some hd]
  refine ⟨fun id data ch hm hch => ?_, fun id add ch hm hch => ?_⟩
  · have hlane : (trunkOf x).lanes e id = some ch.lane := lanes_of_get? hch
    rcases hm with ⟨rest, rfl⟩ | ⟨code, rest, rfl⟩
    · have hdata : data.length < 2 ^ 32 := by
        simp only [Msg.channelData, putBytes, List.length_append, List.length_cons] at hlen
        omega
      obtain ⟨mail, hm⟩ := hmail _ (parcel_data id hdata)
      have hfits : data.length ≤ ch.recvWindow.toNat := h.sound.spare hm hlane
      have hle : UInt32.ofNat data.length ≤ ch.recvWindow := by
        rw [UInt32.le_iff_toNat_le, UInt32.toNat_ofNat', Nat.mod_eq_of_lt hdata]
        exact hfits
      rw [pushIn_apply, if_pos hle]
      exact ⟨_, rfl⟩
    · -- no end of this program sends extended data
      rw [List.cons_append] at hknown
      rcases hknown with hfree | hsome
      · exact absurd rfl (hfree .channelExtendedData (by decide))
      · rw [parcel_extended] at hsome
        cases hsome
  · have hlane : (trunkOf x).lanes e id = some ch.lane := lanes_of_get? hch
    obtain ⟨rest, rfl⟩ := hm
    have hparcel : parcel (Msg.windowAdjust id add ++ rest) = some (.credit id add.toNat) := by
      rw [← parcel_adjust (r := rest) id add, Msg.windowAdjust]
      simp only [List.append_assoc, List.cons_append]
    obtain ⟨mail, hm⟩ := hmail _ hparcel
    have hroom : ch.sendWindow.toNat + add.toNat ≤ maxWindow := h.sound.room hm hlane
    rw [saturatingAdd32_toNat]
    exact Nat.min_eq_left hroom

theorem payloads_handled (log : List Obs) (b : Connection) (p : Bytes) :
    payloads (log ++ [.handled b p]) = payloads log ++ [p] := payloads_append _ _

/-- The turns of one end, while the other rests. -/
theorem Laden.allRoomy [CryptoLib] (h : Laden x) (ht : Turns (x e) y) (hc : Candid y.log)
    (hin : payloads y.log <+: sentPayloads (x e.other).log)
    (hout : payloads (x e.other).log <+: sentPayloads (x e).log)
    (hall : AllRoomy (x e).log) : AllRoomy y.log := by
  induction ht with
  | refl => exact hall
  | @tail y y' hpre hlast ih =>
    have hgrown : y.log <+: y'.log := Strides.log hlast.strides
    have hc' := hc.mono hgrown
    have hin' := (payloads_mono hgrown).trans hin
    obtain ⟨hladen, -⟩ := h.strides (Turns.strides hpre) hc' hin' hout
    have hself : Function.update x e y e = y := Function.update_self e y x
    have hother : Function.update x e y e.other = x e.other := Function.update_of_ne e.other_ne y x
    have hnew : ∀ {p y1}, Handles p y y1 → y1.log <+: y'.log → Roomy y.now p := by
      intro p y1 hh hl
      obtain ⟨hknown, hlen⟩ := hc.heard y.now p (hl.subset hh.handled)
      have hnext := (payloads_mono (hh.log.trans hl)).trans hin
      rw [payloads_handled] at hnext
      have hroomy := hladen.roomy (e := e) hknown hlen (by rw [hself, hother]; exact hnext)
      rwa [hself] at hroomy
    have hold := ih hc' hin'
    have hhandled : ∀ {p y1}, Handles p y y1 → y1.log <+: y'.log → AllRoomy y1.log := by
      intro p y1 hh hl b q hmem
      rcases hh.mem_handled hmem with hmem | ⟨rfl, rfl⟩
      · exact hold b q hmem
      · exact hnew hh hl
    cases hlast with
    | quiet hq =>
      cases hq with
      | step hs => exact hold.later hs.extends.log.later
      | handle hh => exact hhandled hh List.prefix_rfl
      | identWait | identDone => exact hold
    | packet hh hs =>
      exact (hhandled hh hs.trail.extends.log.isPrefix).later hs.trail.extends.log.later

end Room

-- ============================================================================
-- Runs of a link
-- ============================================================================

/-- No CHANNEL_CLOSE was sent. -/
def Unclosed (log : List Obs) : Prop := ∀ q ∈ sentPayloads log, ¬IsMsg .channelClose q

instance (log : List Obs) : Decidable (Unclosed log) :=
  inferInstanceAs (Decidable (∀ q ∈ sentPayloads log, ¬IsMsg .channelClose q))

theorem Unclosed.mono {log log' : List Obs} (h : Unclosed log') (hl : log <+: log') :
    Unclosed log :=
  fun q hq => h q ((sentPayloads_mono hl).subset hq)

/-- Whatever an end has sent, its peer can read. -/
theorem known_of_sent [CryptoLib] {setup : Setup} {z : Conn} {p : Bytes} (hz : setup.Reaches z)
    (hfit : LengthsFit z.log) (hp : p ∈ sentPayloads z.log) : Known p ∧ p.length < 2 ^ 32 := by
  obtain ⟨b, owner, w, hq⟩ := mem_sentPayloads hp
  obtain ⟨i, hi, rfl⟩ := List.mem_map.mp hp
  have hlen := hfit i hi
  exact ⟨hz.known hq (by omega), by omega⟩

/-- Whatever an end has handled, the other end has sent. -/
theorem candid_of_reaches [CryptoLib] {setup setup' : Setup} {y z : Conn} (hy : setup.Reaches y)
    (hz : setup'.Reaches z) (hin : payloads y.log <+: sentPayloads z.log)
    (hfit : LengthsFit z.log) (hopen : Unclosed z.log) : Candid y.log := by
  have hsent : ∀ {b p}, Obs.handled b p ∈ y.log → p ∈ sentPayloads z.log := by
    intro b p hmem
    exact hin.subset (List.mem_map.mpr ⟨(b, p), mem_handledPackets.mpr hmem, rfl⟩)
  have hheard : ∀ b p, Obs.handled b p ∈ y.log → Known p ∧ p.length < 2 ^ 32 :=
    fun b p hmem => known_of_sent hz hfit (hsent hmem)
  exact ⟨fun b q w hmem => hy.subdued hheard hmem, hheard, fun b p hmem => hopen p (hsent hmem)⟩

namespace Link

/-- The client opens channels, the server accepts them. -/
def ends (l : Link) : End → Conn
  | .opener => l.client
  | .acceptor => l.server

/-- The link as a trunk. -/
def trunk (l : Link) : Trunk UInt32 := trunkOf l.ends

variable [CryptoLib]

/-- The application that makes the call is polite. -/
def Act.Polite : Act → Link → Prop
  | .call side made, l => made.Polite (l.ends side.port).now
  | .arrive _ _, _ => True

/-- Both applications are, all along the run. -/
def Polite : List Act → Link → Prop
  | [], _ => True
  | a :: acts, l => a.Polite l ∧ ∀ l' ∈ act a l, Polite acts l'

instance Act.decidablePolite : (a : Act) → (l : Link) → Decidable (a.Polite l)
  | .call side made, l => inferInstanceAs (Decidable (made.Polite (l.ends side.port).now))
  | .arrive _ _, _ => isTrue trivial

/-- The channel on whose open the act decides. -/
def Act.decides : Act → Option UInt32
  | .call _ made => made.decides
  | .arrive _ _ => none

omit [CryptoLib] in
/-- Only a decision can be impolite. -/
theorem Act.polite_of_none {a : Act} (h : a.decides = none) (l : Link) : a.Polite l := by
  cases a with
  | call side made =>
    intro id hid
    cases h.symm.trans hid
  | arrive side n => trivial

/-- What goes before the first decision cannot be impolite. -/
theorem polite_append {l : Link} (pre : List Act) {post : List Act}
    (hpre : ∀ a ∈ pre, a.decides = none)
    (hpost : ∀ l1, pre.foldlM (fun l a => act a l) l = some l1 → Polite post l1) :
    Polite (pre ++ post) l := by
  induction pre generalizing l with
  | nil => exact hpost l rfl
  | cons a pre ih =>
    refine ⟨Act.polite_of_none (hpre a List.mem_cons_self) l, fun l' hl' => ?_⟩
    refine ih (fun a ha => hpre a (List.mem_cons_of_mem _ ha)) fun l1 hl1 => hpost l1 ?_
    rw [List.foldlM_cons, Option.bind_eq_bind, hl']
    exact hl1

theorem polite_of_none {l : Link} (acts : List Act) (h : ∀ a ∈ acts, a.decides = none) :
    Polite acts l := by
  have hquiet : ∀ l1, acts.foldlM (fun l a => act a l) l = some l1 → Polite [] l1 :=
    fun _ _ => trivial
  have happ := polite_append acts h hquiet
  rwa [List.append_nil] at happ

variable {l l' : Link} {a : Act} {acts : List Act}

theorem run_append {server : ServerConfig} {client : ClientConfig} {rngS rngC : Rng}
    (h : run server client rngS rngC acts = some l) {post : List Act}
    (hpost : post.foldlM (fun l a => act a l) l = some l') :
    run server client rngS rngC (acts ++ post) = some l' := by
  unfold run at h ⊢
  obtain ⟨l0, hstart, hacts⟩ := Option.bind_eq_some_iff.mp h
  rw [hstart, Option.bind_eq_bind, Option.bind_some, List.foldlM_append, hacts,
    Option.bind_eq_bind, Option.bind_some]
  exact hpost

/-- A run with one decision, which is polite. -/
theorem polite_of_run {server : ServerConfig} {client : ClientConfig} {rngS rngC : Rng}
    (hacts : ∀ a ∈ acts, a.decides = none) (h : run server client rngS rngC acts = some l)
    (ha : a.Polite l) {post : List Act} (hpost : ∀ a ∈ post, a.decides = none) :
    ∀ l0 ∈ start server client rngS rngC, Polite (acts ++ a :: post) l0 := by
  intro l0 hstart
  refine polite_append acts hacts fun l1 hl1 => ⟨?_, fun l2 _ => polite_of_none post hpost⟩
  have hrun : run server client rngS rngC acts = some l1 := by
    unfold run
    rw [hstart]
    exact hl1
  rw [hrun] at h
  cases h
  exact ha

omit [CryptoLib] in
theorem ends_server (l : Link) (s : Conn) (down up : Bytes) :
    ends ⟨s, l.client, down, up⟩ = Function.update l.ends .acceptor s := by
  funext e
  cases e <;> rfl

omit [CryptoLib] in
theorem ends_client (l : Link) (c : Conn) (down up : Bytes) :
    ends ⟨l.server, c, down, up⟩ = Function.update l.ends .opener c := by
  funext e
  cases e <;> rfl

/-- One end moves, the other rests. -/
theorem act_strides (hl : Linked l) (h : act a l = some l') (hp : a.Polite l) :
    ∃ e y, Strides (l.ends e) y ∧ l'.ends = Function.update l.ends e y := by
  cases a with
  | call side call =>
    cases side with
    | server =>
      obtain ⟨s', hcall, rfl⟩ := Option.map_eq_some_iff.mp h
      exact ⟨.acceptor, s', callEnd_strides hl.server hcall hp, ends_server l s' _ _⟩
    | client =>
      obtain ⟨c', hcall, rfl⟩ := Option.map_eq_some_iff.mp h
      exact ⟨.opener, c', callEnd_strides hl.client hcall hp, ends_client l c' _ _⟩
  | arrive side n =>
    cases side with
    | server =>
      cases h
      exact ⟨.acceptor, fed (l.up.take n) l.server, .still rfl rfl rfl, ends_server l _ _ _⟩
    | client =>
      cases h
      exact ⟨.opener, fed (l.down.take n) l.client, .still rfl rfl rfl, ends_client l _ _ _⟩

end Link

section Runs

variable [CryptoLib] {l l' : Link} {a : Link.Act} {acts : List Link.Act}

omit [CryptoLib] in
theorem payloads_of_opened (l : List Obs) : (openedPackets l).map (·.2) = payloads l := by
  rw [openedPackets, List.map_map, payloads]
  rfl

omit [CryptoLib] in
theorem sentPayloads_of_sealed (l : List Obs) : (sealedPackets l).map (·.2) = sentPayloads l := by
  rw [sealedPackets, List.map_map, sentPayloads]
  rfl

/-- The payloads that an end handles are those that the other sends, in order. -/
theorem Linked.heard (h : Linked l) (e : End) :
    payloads (l.ends e).log <+: sentPayloads (l.ends e.other).log := by
  obtain ⟨fd, fu, hc⟩ := h.coupled
  rw [← payloads_of_opened, ← sentPayloads_of_sealed]
  cases e with
  | opener => exact hc.down.opens.map _
  | acceptor => exact hc.up.opens.map _

/-- A packet that is taken is the next one, also if its handler fails. -/
theorem Carried.next [CryptoLaws] {a b b1 : Conn} {pipe p : Bytes} {flight : List Packet}
    (h : Carried a b pipe flight) (hfit : LengthsFit a.log) (hid : b.now.identInDone = true)
    (hr : Receives p b b1) : payloads b.log ++ [p] <+: sentPayloads a.log := by
  obtain ⟨i, rest, rfl, rfl, -, -⟩ := h.take hfit hid hr
  have hopens := h.relay.take.isPrefix.map Prod.snd
  rw [List.map_append, payloads_of_opened] at hopens
  rw [← sentPayloads_of_sealed]
  exact hopens

theorem Linked.wellFormed (h : Linked l) (e : End) : WellFormed (l.ends e) := by
  cases e with
  | opener => exact h.client
  | acceptor => exact h.server

/-- The hops of one end, while the other rests. -/
theorem Linked.hops [CryptoLaws] (h : Linked l) (hfit : LengthsFit (l.ends e.other).log)
    (hh : Hops (l.ends e) y) : ∃ l', Linked l' ∧ l'.ends = Function.update l.ends e y := by
  cases e with
  | opener => exact ⟨_, h.clientHops hfit hh, Link.ends_client l y l.down l.up⟩
  | acceptor => exact ⟨_, h.serverHops hfit hh, Link.ends_server l y l.down l.up⟩

/-- What one end takes is what the other has sent. -/
theorem Linked.next [CryptoLaws] {p : Bytes} {c1 : Conn} (h : Linked l)
    (hfit : LengthsFit (l.ends e.other).log) (hid : (l.ends e).now.identInDone = true)
    (hr : Receives p (l.ends e) c1) :
    payloads (l.ends e).log ++ [p] <+: sentPayloads (l.ends e.other).log := by
  obtain ⟨fd, fu, hc⟩ := h.coupled
  cases e with
  | opener => exact hc.down.next hfit hid hr
  | acceptor => exact hc.up.next hfit hid hr

/-- The windows of both ends of each channel that the server has confirmed, and all
    that is on the way between them. -/
def Link.Balanced (l : Link) : Prop :=
  ∀ j a, l.server.now.channels.get? j = some a → a.openConfirmed = true →
    ∃ i o, a.remoteId = some i ∧ l.client.now.channels.get? i = some o ∧
      o.recvWindow.toNat = a.sendWindow.toNat + dataIn (l.trunk.notes .opener i)
        + creditIn (l.trunk.notes .acceptor j) ∧
      a.recvWindow.toNat = (windowIn (l.trunk.notes .opener i)).getD o.sendWindow.toNat
        + dataIn (l.trunk.notes .acceptor j) + creditIn (l.trunk.notes .opener i)

/-- The invariant of a link under flow control. -/
structure Flowing (l : Link) : Prop where
  linked : Linked l
  reach : ∀ e, ∃ setup : Setup, setup.Reaches (l.ends e)
  laden : Laden l.ends
  roomy : ∀ e, AllRoomy (l.ends e).log

theorem Flowing.balanced (hf : Flowing l) : l.Balanced := by
  intro j a ha hc
  have hlane : l.trunk.lanes .acceptor j = some a.lane := lanes_of_get? ha
  obtain ⟨i, lane, hr, hlane', hdown, hup⟩ := hf.laden.sound.conserved hlane hc
  obtain ⟨o, ho, rfl⟩ := get?_of_lanes hlane'
  exact ⟨i, o, hr, ho, hdown, hup⟩

/-- In a call of `process_in` whatever is handled finds room. -/
theorem Flowing.processIn_roomy [CryptoLaws] (hf : Flowing l)
    (hfit : LengthsFit (l.ends e.other).log) (hopen : Unclosed (l.ends e.other).log)
    (h : (processIn (l.ends e)).state? = some y) :
    AllRoomy y.log := by
  obtain ⟨setup, hreach⟩ := hf.reach e
  obtain ⟨setup', hreach'⟩ := hf.reach e.other
  have hout := hf.linked.heard e.other
  rw [End.other_other] at hout
  have hturns : ∀ {z}, Hops (l.ends e) z → Turns (l.ends e) z → AllRoomy z.log ∧
      Laden (Function.update l.ends e z) ∧
        ∃ l', Linked l' ∧ l'.ends = Function.update l.ends e z := by
    intro z hh ht
    obtain ⟨l', hl', hends⟩ := hf.linked.hops hfit hh
    have hin := hl'.heard e
    rw [hends, Function.update_self, Function.update_of_ne e.other_ne] at hin
    have hcandid := candid_of_reaches (hreach.moves hh.moves) hreach' hin hfit hopen
    exact ⟨hf.laden.allRoomy ht hcandid hin hout (hf.roomy e),
      (hf.laden.strides ht.strides hcandid hin hout).1, l', hl', hends⟩
  have hwf := hf.linked.wellFormed e
  rcases Outcome.state?_eq_some h with ⟨r, hok⟩ | ⟨err, herr⟩
  · exact (hturns ((processIn_hops _ hwf).of_ok hok) ((processIn_sat _ hwf).of_ok hok)).1
  · obtain ⟨hh, ht, hfalters⟩ := (processIn_hops _ hwf).of_err herr
    obtain ⟨hroomy, hladen, l', hl', hends⟩ := hturns hh ht
    cases hfalters with
    | quiet hl => exact hroomy.later hl
    | @refused p c2 hid hr hl =>
      have hself := congrFun hends e
      rw [Function.update_self] at hself
      have hother := congrFun hends e.other
      rw [Function.update_of_ne e.other_ne] at hother
      have hnext := hl'.next (e := e) (by rw [hother]; exact hfit) (by rw [hself]; exact hid)
        (by rw [hself]; exact hr)
      rw [hother] at hnext
      obtain ⟨hknown, hlen⟩ := known_of_sent hreach' hfit
        (hnext.subset (List.mem_append_right _ (List.mem_singleton_self p)))
      have hroom := hladen.roomy (e := e) hknown hlen (by
        rw [← hends, hother]
        exact hnext)
      rw [Function.update_self] at hroom
      refine AllRoomy.later (fun b q hmem => ?_) hl
      rw [hr.log] at hmem
      rcases List.mem_append.mp hmem with hmem | hmem
      · exact hroomy b q hmem
      · cases List.mem_singleton.mp hmem
        exact hroom

/-- Whatever is handled in a call finds room. -/
theorem Flowing.callEnd_roomy [CryptoLaws] {call : Call} (hf : Flowing l)
    (hfit : LengthsFit (l.ends e.other).log) (hopen : Unclosed (l.ends e.other).log)
    (h : Link.callEnd call (l.ends e) = some y) : AllRoomy y.log := by
  rcases Link.callEnd_cases h with ⟨rfl, r, hok⟩ | ⟨hin, hrecv, hend⟩
  · exact hf.processIn_roomy hfit hopen (by rw [hok]; rfl)
  · have hcalled := call.run_called (l.ends e) (hf.linked.wellFormed e) hin hrecv
    have hlater : ∀ {z}, Called call (l.ends e) z → AllRoomy z.log :=
      fun hc => (hf.roomy e).later hc.trail.extends.log.later
    rcases Outcome.state?_eq_some hend with ⟨r, hok⟩ | ⟨err, herr⟩
    · exact hlater (hcalled.of_ok hok)
    · exact hlater (hcalled.of_err herr)

namespace Link

/-- What happens to the ends, end by end. -/
theorem act_moves (hl : Linked l) (h : act a l = some l') (e : End) :
    Moves (l.ends e) (l'.ends e) := by
  obtain ⟨hs, hc⟩ := act_beats hl.server hl.client h
  cases e with
  | opener => exact hc.moves
  | acceptor => exact hs.moves

theorem act_roomy [CryptoLaws] (hf : Flowing l) (h : act a l = some l')
    (hfit : ∀ e, LengthsFit (l.ends e).log) (hopen : ∀ e, Unclosed (l.ends e).log) (e : End) :
    AllRoomy (l'.ends e).log := by
  cases a with
  | call side call =>
    cases side with
    | server =>
      obtain ⟨s', hcall, rfl⟩ := Option.map_eq_some_iff.mp h
      cases e with
      | opener => exact hf.roomy .opener
      | acceptor => exact hf.callEnd_roomy (e := .acceptor) (hfit .opener) (hopen .opener) hcall
    | client =>
      obtain ⟨c', hcall, rfl⟩ := Option.map_eq_some_iff.mp h
      cases e with
      | opener => exact hf.callEnd_roomy (e := .opener) (hfit .acceptor) (hopen .acceptor) hcall
      | acceptor => exact hf.roomy .acceptor
  | arrive side n =>
    -- bytes that wait change no history
    have hsame : (l'.ends e).log = (l.ends e).log := by
      cases side <;> cases h <;> cases e <;> rfl
    rw [hsame]
    exact hf.roomy e

/-- One act is a few steps of the trunk. -/
theorem act_refines [CryptoLaws] (hf : Flowing l) (h : act a l = some l') (hp : a.Polite l)
    (hfit : ∀ e, LengthsFit (l'.ends e).log) (hopen : ∀ e, Unclosed (l'.ends e).log) :
    Flowing l' ∧ ReflTransGen (Trunk.Step maxWindow) l.trunk l'.trunk := by
  have hl' : Linked l' := act_linked hf.linked h (hfit .acceptor) (hfit .opener)
  have hmoves := act_moves hf.linked h
  have hreach : ∀ e, ∃ setup : Setup, setup.Reaches (l'.ends e) := by
    intro e
    obtain ⟨setup, hr⟩ := hf.reach e
    exact ⟨setup, hr.moves (hmoves e)⟩
  have hroomy : ∀ e, AllRoomy (l'.ends e).log :=
    act_roomy hf h (fun e => (hfit e).mono (hmoves e).log) fun e => (hopen e).mono (hmoves e).log
  obtain ⟨e, y, hs, hends⟩ := act_strides hf.linked h hp
  have hself : l'.ends e = y := by rw [hends, Function.update_self]
  have hother : l'.ends e.other = l.ends e.other := by
    rw [hends, Function.update_of_ne e.other_ne]
  have hin := hl'.heard e
  have hout := hf.linked.heard e.other
  obtain ⟨setup, hr⟩ := hreach e
  obtain ⟨setup', hr'⟩ := hreach e.other
  have hcandid := candid_of_reaches hr hr' hin (hfit _) (hopen _)
  rw [End.other_other] at hout
  rw [hself, hother] at hin
  rw [hself] at hcandid
  obtain ⟨hladen, hsteps⟩ := hf.laden.strides hs hcandid hin hout
  rw [← hends] at hladen hsteps
  exact ⟨⟨hl', hreach, hladen, hroomy⟩, hsteps⟩

/-- What the configurations have to promise. -/
structure Sane (server : ServerConfig) (client : ClientConfig) : Prop where
  serverLine : OneLine server.ident
  clientLine : OneLine client.ident
  serverLimits : server.writeBufSoft ≤ server.writeBufHard
  clientLimits : client.writeBufSoft ≤ client.writeBufHard

variable {server : ServerConfig} {client : ClientConfig} {rngS rngC : Rng}

omit [CryptoLib] in
/-- A constructor makes an end without channels. -/
theorem blank_berth (setup : Setup) (rng : Rng)
    (hlimits : (setup.blank rng).writeSoft ≤ (setup.blank rng).writeHard) :
    Berth setup.role.port ⟨setup.blank rng, []⟩ := by
  cases setup with
  | server cfg => exact ⟨rfl, hlimits, .new _, fun _ _ hch => by cases hch⟩
  | client cfg => exact ⟨rfl, hlimits, .new _, fun _ _ hch => by cases hch⟩

/-- A constructor handles nothing, and sends nothing but its KEXINIT. -/
theorem candid_of_starts {setup : Setup} {rng : Rng} {y : Conn}
    (h : Starts ⟨setup.blank rng, []⟩ y) : payloads y.log = [] ∧ Candid y.log := by
  obtain ⟨new, hlog, hroutine⟩ := h.extends.log
  have hnone : ∀ b p, Obs.handled b p ∉ y.log := by
    intro b p hmem
    rw [hlog] at hmem
    exact hroutine _ hmem
  refine ⟨?_, fun b q w hmem => ?_, fun b p hmem => absurd hmem (hnone b p),
    fun b p hmem => absurd hmem (hnone b p)⟩
  · apply List.eq_nil_iff_forall_not_mem.mpr
    intro p hp
    obtain ⟨b, hb⟩ := mem_payloads hp
    exact hnone b p hb
  · have hadds : Adds (fun _ _ q => IsMsg .kexinit q) [] y.log := h.adds fun _ _ _ hm => hm
    rcases hadds b none q w hmem with hold | hm
    · cases hold
    · exact flowFree_of_isMsg hm (by decide)

/-- Both ends before their constructors start the first key exchange. -/
def blank (server : ServerConfig) (client : ClientConfig) (rngS rngC : Rng) : Link :=
  ⟨⟨(Setup.server server).blank rngS, []⟩, ⟨(Setup.client client).blank rngC, []⟩, [], []⟩

omit [CryptoLib] in
theorem trunk_blank (server : ServerConfig) (client : ClientConfig) (rngS rngC : Rng) :
    (blank server client rngS rngC).trunk = .empty := by
  apply Trunk.ext_of_end .opener <;> rfl

omit [CryptoLib] in
theorem blank_laden (hsane : Sane server client) (rngS rngC : Rng) :
    Laden (blank server client rngS rngC).ends where
  berth e := by
    cases e with
    | opener => exact blank_berth (.client client) rngC hsane.clientLimits
    | acceptor => exact blank_berth (.server server) rngS hsane.serverLimits
  sound := by
    have hsound := Trunk.sound_empty (I := UInt32) maxWindow
    rw [← trunk_blank server client rngS rngC] at hsound
    exact hsound

/-- The constructors do nothing to a lane. -/
theorem start_flowing [CryptoLaws] (hsane : Sane server client)
    (h : start server client rngS rngC = some l) (hfit : LengthsFit l.server.log) :
    Flowing l ∧ ReflTransGen (Trunk.Step maxWindow) .empty l.trunk := by
  have hlinked := start_linked hsane.serverLine hsane.clientLine h hfit
  obtain ⟨hstartS, hstartC, -, -⟩ := starts_of_start h
  have hreach : ∀ e, ∃ setup : Setup, setup.Reaches (l.ends e) := by
    intro e
    cases e with
    | opener => exact ⟨.client client, rngC, l.client, hstartC, .refl⟩
    | acceptor => exact ⟨.server server, rngS, l.server, hstartS, .refl⟩
  obtain ⟨hquietS, hcandidS⟩ := candid_of_starts hstartS
  obtain ⟨hquietC, hcandidC⟩ := candid_of_starts hstartC
  -- the server first, then the client
  obtain ⟨h1, hs1⟩ := (blank_laden hsane rngS rngC).stride (e := .acceptor) hstartS.stride hcandidS
    (hquietS.symm ▸ List.nil_prefix) List.nil_prefix
  rw [← ends_server _ _ [] []] at h1 hs1
  obtain ⟨h2, hs2⟩ := h1.stride (e := .opener) hstartC.stride hcandidC
    (hquietC.symm ▸ List.nil_prefix) (hquietS.symm ▸ List.nil_prefix)
  rw [← ends_client _ _ l.down l.up] at h2 hs2
  rw [← trunk_blank server client rngS rngC]
  refine ⟨⟨hlinked, hreach, h2, fun e => ?_⟩, hs1.trans hs2⟩
  cases e with
  | opener => exact allRoomy_of_quiet hquietC
  | acceptor => exact allRoomy_of_quiet hquietS

theorem acts_refine [CryptoLaws] (hf : Flowing l)
    (h : acts.foldlM (fun l a => act a l) l = some l') (hp : Polite acts l)
    (hfit : ∀ e, LengthsFit (l'.ends e).log) (hopen : ∀ e, Unclosed (l'.ends e).log) :
    Flowing l' ∧ ReflTransGen (Trunk.Step maxWindow) l.trunk l'.trunk := by
  induction acts generalizing l with
  | nil =>
    cases h
    exact ⟨hf, .refl⟩
  | cons a acts ih =>
    obtain ⟨l1, hact, hrest⟩ := Option.bind_eq_some_iff.mp h
    obtain ⟨hs1, hc1⟩ := act_beats hf.linked.server hf.linked.client hact
    obtain ⟨hs2, hc2⟩ := acts_beats (hs1.moves.wellFormed hf.linked.server)
      (hc1.moves.wellFormed hf.linked.client) hrest
    have hlog : ∀ e, (l1.ends e).log <+: (l'.ends e).log := by
      intro e
      cases e with
      | opener => exact hc2.moves.log
      | acceptor => exact hs2.moves.log
    obtain ⟨hf1, hsteps1⟩ := act_refines hf hact hp.1 (fun e => (hfit e).mono (hlog e))
      fun e => (hopen e).mono (hlog e)
    obtain ⟨hf', hsteps⟩ := ih hf1 hrest (hp.2 l1 hact)
    exact ⟨hf', hsteps1.trans hsteps⟩

end Link

end Runs

-- ============================================================================
-- A conversation on concrete bytes
-- ============================================================================

namespace Toy

theorem sane : Link.Sane server client :=
  ⟨by decide +kernel, by decide +kernel, by decide, by decide⟩

/-- The client logs in and opens a channel. -/
def opening : List Link.Act :=
  deliveries ++ .call .client (.openDirectTcpip "a" 80) :: deliver .server

/-- Both ends send on it. -/
def replies : List Link.Act :=
  deliver .client ++ [.call .client (.sendData 0 [1, 2, 3]), .call .server (.sendData 0 [4, 5])]

/-- The server confirms it, and both ends send on it. -/
def conversation : List Link.Act :=
  opening ++ .call .server (.confirmOpen 0) :: replies

/-- What they have sent arrives. -/
def received : List Link.Act :=
  opening ++ .call .server (.confirmOpen 0) :: (replies ++ deliver .server ++ deliver .client)

/-- Both ends have sent short packets, and none of them is a CHANNEL_CLOSE. -/
def Tame (l : Link) : Prop :=
  ((sentPackets l.server.log).all Packet.short ∧ Unclosed l.server.log) ∧
    (sentPackets l.client.log).all Packet.short ∧ Unclosed l.client.log

instance (l : Link) : Decidable (Tame l) := by
  unfold Tame
  infer_instance

theorem Tame.lengthsFit {l : Link} (h : Tame l) (e : End) : LengthsFit (l.ends e).log := by
  cases e with
  | opener => exact (shortPayloads_of_all h.2.1).withinMax.lengthsFit
  | acceptor => exact (shortPayloads_of_all h.1.1).withinMax.lengthsFit

theorem Tame.unclosed {l : Link} (h : Tame l) (e : End) : Unclosed (l.ends e).log := by
  cases e with
  | opener => exact h.2.2
  | acceptor => exact h.1.2

/-- The application of the server may decide on the open of channel 0, it confirms it,
    and `rest` ends in a link with the property. -/
def Talk (cfg : ServerConfig) (rest : List Link.Act) (P : Link → Prop) [DecidablePred P] : Prop :=
  (@Link.run lib cfg client rng otherRng opening).any (fun l =>
    @Link.Act.Polite (.call .server (.confirmOpen 0)) l ∧
      ((.call .server (.confirmOpen 0) :: rest).foldlM (fun l a => @Link.act lib a l) l).any
        (fun l => P l) = true) = true

theorem Talk.facts {cfg : ServerConfig} {rest : List Link.Act} {P : Link → Prop} [DecidablePred P]
    (h : Talk cfg rest P) (hrest : ∀ a ∈ rest, a.decides = none) :
    (∀ l0 ∈ @Link.start lib cfg client rng otherRng,
      @Link.Polite lib (opening ++ .call .server (.confirmOpen 0) :: rest) l0) ∧
    ∃ l, @Link.run lib cfg client rng otherRng
      (opening ++ .call .server (.confirmOpen 0) :: rest) = some l ∧ P l := by
  let _ := lib
  obtain ⟨l1, hl1, hfacts⟩ := (Option.any_eq_true _ _).mp h
  obtain ⟨hpolite, hany⟩ := of_decide_eq_true hfacts
  obtain ⟨l, hl, hP⟩ := (Option.any_eq_true _ _).mp hany
  exact ⟨Link.polite_of_run (by decide) hl1 hpolite hrest, l, Link.run_append hl1 hl,
    of_decide_eq_true hP⟩

set_option maxRecDepth 4000 in
theorem conversed_talk : Talk server replies fun l =>
    Tame l ∧ (l.server.now.channels.get? 0).any (·.openConfirmed) ∧
      dataIn (l.trunk.notes .opener 0) = 2 ∧ dataIn (l.trunk.notes .acceptor 0) = 3 := by
  unfold Talk
  decide +kernel

theorem conversed_politely : ∀ l0 ∈ @Link.start lib server client rng otherRng,
    @Link.Polite lib conversation l0 :=
  (conversed_talk.facts (by decide)).1

theorem conversed : ∃ l a, @Link.run lib server client rng otherRng conversation = some l ∧
    (∀ e, LengthsFit (l.ends e).log) ∧ (∀ e, Unclosed (l.ends e).log) ∧
    l.server.now.channels.get? 0 = some a ∧ a.openConfirmed = true ∧
    dataIn (l.trunk.notes .opener 0) = 2 ∧ dataIn (l.trunk.notes .acceptor 0) = 3 := by
  obtain ⟨-, l, hl, htame, hch, hdata⟩ := conversed_talk.facts (by decide)
  obtain ⟨a, ha, hconf⟩ := (Option.any_eq_true _ _).mp hch
  exact ⟨l, a, hl, htame.lengthsFit, htame.unclosed, ha, hconf, hdata⟩

/-- This server sends no data at all, though it takes some from the application. -/
def rigid : ServerConfig := { server with writeBufHard := 0 }

end Toy

-- ============================================================================
-- Whole runs
-- ============================================================================

namespace Link

variable [CryptoLib] {l : Link} {acts : List Act} {server : ServerConfig} {client : ClientConfig}
  {rngS rngC : Rng}

section Results

variable (hsane : Sane server client) (h : run server client rngS rngC acts = some l)
  (hpolite : ∀ l0 ∈ start server client rngS rngC, Polite acts l0)
  (hfit : ∀ e, LengthsFit (l.ends e).log) (hopen : ∀ e, Unclosed (l.ends e).log)

include hsane h hpolite hfit hopen

theorem run_flowing [CryptoLaws] :
    Flowing l ∧ ReflTransGen (Trunk.Step maxWindow) .empty l.trunk := by
  obtain ⟨l0, hstart, hacts, hserver, -⟩ := run_beats h
  obtain ⟨hf0, hsteps0⟩ := start_flowing hsane hstart ((hfit .acceptor).mono hserver.moves.log)
  obtain ⟨hf, hsteps⟩ := acts_refine hf0 hacts (hpolite l0 hstart) hfit hopen
  exact ⟨hf, hsteps0.trans hsteps⟩

/-- As long as no channel is closed, the flow control of a server and a client is
    a run of the trunk, whatever the order of calls, packets and key exchanges. -/
theorem run_refines [CryptoLaws] :
    ReflTransGen (Trunk.Step maxWindow) .empty l.trunk :=
  (run_flowing hsane h hpolite hfit hopen).2

/-- On every channel that the server has confirmed, in both directions: the window
    of the receiver is the window of the sender and all data and credit on the way.
    A confirmation on the way brings the window of the client. -/
theorem run_conserves [CryptoLaws] (j : UInt32) (a : Channel)
    (ha : l.server.now.channels.get? j = some a) (hc : a.openConfirmed = true) :
    ∃ i o, a.remoteId = some i ∧ l.client.now.channels.get? i = some o ∧
      o.recvWindow.toNat = a.sendWindow.toNat + dataIn (l.trunk.notes .opener i)
        + creditIn (l.trunk.notes .acceptor j) ∧
      a.recvWindow.toNat = (windowIn (l.trunk.notes .opener i)).getD o.sendWindow.toNat
        + dataIn (l.trunk.notes .acceptor j) + creditIn (l.trunk.notes .opener i) :=
  (run_flowing hsane h hpolite hfit hopen).1.balanced j a ha hc

/-- Window conservation: on every channel that the server has confirmed the windows
    balance.  So `push_in` takes all the data that either end is handed, and all the
    credit is added in full, also in a call that fails. -/
theorem run_balanced [CryptoLaws] : l.Balanced ∧ ∀ e, AllRoomy (l.ends e).log ∧
    ∀ c', (processIn (l.ends e)).state? = some c' → AllRoomy c'.log := by
  obtain ⟨hf, -⟩ := run_flowing hsane h hpolite hfit hopen
  exact ⟨hf.balanced, fun e => ⟨hf.roomy e, fun _ hc' =>
    hf.processIn_roomy (hfit e.other) (hopen e.other) hc'⟩⟩

/-- What is on the way finds its channel.  The data on the way to a channel fits
    into its window, and no credit on the way saturates the window it is for. -/
theorem run_fits [CryptoLaws] (e : End) (id : UInt32) :
    (∀ n ∈ l.trunk.notes e id, ∃ ch, (l.ends e).now.channels.get? id = some ch) ∧
    ∀ ch, (l.ends e).now.channels.get? id = some ch →
      dataIn (l.trunk.notes e id) ≤ ch.recvWindow.toNat ∧
      (∀ r, ch.remoteId = some r → ch.openConfirmed = true →
        ch.sendWindow.toNat + creditIn (l.trunk.notes e id) ≤ maxWindow) := by
  have hsound := (run_flowing hsane h hpolite hfit hopen).1.laden.sound
  refine ⟨fun n hn => ?_, fun ch hch => ?_⟩
  · obtain ⟨lane, hlane⟩ := hsound.live hn
    obtain ⟨ch, hch, -⟩ := get?_of_lanes hlane
    exact ⟨ch, hch⟩
  · have hlane : l.trunk.lanes e id = some ch.lane := lanes_of_get? hch
    exact ⟨hsound.fits hlane, fun r hr hc => hsound.uncapped hlane hr hc⟩

end Results

omit [CryptoLib] in
set_option maxRecDepth 4000 in
/-- A server whose hard limit is below the soft one: `send_data` takes the bytes out
    of the window, and then fails. -/
theorem credit_lost : ∃ l, @run Toy.lib Toy.rigid Toy.client Toy.rng Toy.otherRng
      Toy.conversation = some l ∧ OneLine Toy.rigid.ident ∧ OneLine Toy.client.ident ∧
    (∀ l0 ∈ @start Toy.lib Toy.rigid Toy.client Toy.rng Toy.otherRng,
      @Polite Toy.lib Toy.conversation l0) ∧
    (∀ e, LengthsFit (l.ends e).log) ∧ (∀ e, Unclosed (l.ends e).log) ∧ ¬l.Balanced := by
  have htalk : Toy.Talk Toy.rigid Toy.replies fun l => Toy.Tame l ∧
      dataIn (l.trunk.notes .opener 0) = 0 ∧ creditIn (l.trunk.notes .acceptor 0) = 0 ∧
      (l.server.now.channels.get? 0).any fun a => a.openConfirmed ∧ a.remoteId = some 0 ∧
        (l.client.now.channels.get? 0).any fun o => a.sendWindow < o.recvWindow := by
    unfold Toy.Talk
    decide +kernel
  obtain ⟨hpolite, l, hl, htame, hdata, hcredit, hch⟩ := htalk.facts (by decide)
  refine ⟨l, hl, by decide +kernel, by decide +kernel, hpolite, htame.lengthsFit, htame.unclosed,
    fun hbal => ?_⟩
  obtain ⟨a, ha, hfacts⟩ := (Option.any_eq_true _ _).mp hch
  obtain ⟨hconf, hr, hany⟩ := of_decide_eq_true hfacts
  obtain ⟨o, ho, hfact⟩ := (Option.any_eq_true _ _).mp hany
  have hlt : a.sendWindow < o.recvWindow := of_decide_eq_true hfact
  obtain ⟨i, o', hi, ho', hdown, -⟩ := hbal 0 a ha hconf
  cases hr.symm.trans hi
  cases ho.symm.trans ho'
  rw [hdata, hcredit] at hdown
  rw [UInt32.lt_iff_toNat_lt] at hlt
  omega

omit [CryptoLib] in
set_option maxRecDepth 4000 in
/-- After a conversation whose data has arrived. -/
theorem run_balanced_conversed : ∃ l, @run Toy.lib Toy.server Toy.client Toy.rng Toy.otherRng
      Toy.received = some l ∧ Msg.channelData 0 [1, 2, 3] ∈ payloads l.server.log ∧
    l.Balanced ∧ ∀ e, AllRoomy (l.ends e).log ∧
      ∀ c', (@processIn Toy.lib (l.ends e)).state? = some c' → AllRoomy c'.log := by
  let _ := Toy.lib
  have _ := Toy.laws
  have htalk : Toy.Talk Toy.server (Toy.replies ++ Toy.deliver .server ++ Toy.deliver .client)
      fun l => Toy.Tame l ∧ Msg.channelData 0 [1, 2, 3] ∈ payloads l.server.log := by
    unfold Toy.Talk
    decide +kernel
  obtain ⟨hpolite, l, hl, htame, hmem⟩ := htalk.facts (by decide)
  exact ⟨l, hl, hmem, run_balanced Toy.sane hl hpolite htame.lengthsFit htame.unclosed⟩

omit [CryptoLib] in
theorem run_refines_conversed : ∃ l, @run Toy.lib Toy.server Toy.client Toy.rng Toy.otherRng
      Toy.conversation = some l ∧
    ReflTransGen (Trunk.Step maxWindow) .empty l.trunk := by
  let _ := Toy.lib
  have _ := Toy.laws
  obtain ⟨l, a, hl, hfit, hopen, -⟩ := Toy.conversed
  exact ⟨l, hl, run_refines Toy.sane hl Toy.conversed_politely hfit hopen⟩

omit [CryptoLib] in
/-- Three bytes on the way to the server, and two to the client. -/
theorem run_conserves_conversed : ∃ l a o i, @run Toy.lib Toy.server Toy.client Toy.rng
      Toy.otherRng Toy.conversation = some l ∧ l.server.now.channels.get? 0 = some a ∧
    a.remoteId = some i ∧ l.client.now.channels.get? i = some o ∧
    dataIn (l.trunk.notes .acceptor 0) = 3 ∧
    o.recvWindow.toNat = a.sendWindow.toNat + dataIn (l.trunk.notes .opener i)
      + creditIn (l.trunk.notes .acceptor 0) := by
  let _ := Toy.lib
  have _ := Toy.laws
  obtain ⟨l, a, hl, hfit, hopen, ha, hc, -, hdata⟩ := Toy.conversed
  obtain ⟨i, o, hr, ho, hdown, -⟩ :=
    run_conserves Toy.sane hl Toy.conversed_politely hfit hopen 0 a ha hc
  exact ⟨l, a, o, i, hl, ha, hr, ho, hdata, hdown⟩

omit [CryptoLib] in
theorem run_fits_conversed : ∃ l a, @run Toy.lib Toy.server Toy.client Toy.rng Toy.otherRng
      Toy.conversation = some l ∧ l.server.now.channels.get? 0 = some a ∧
    3 ≤ a.recvWindow.toNat := by
  let _ := Toy.lib
  have _ := Toy.laws
  obtain ⟨l, a, hl, hfit, hopen, ha, -, -, hdata⟩ := Toy.conversed
  have hfits := (run_fits Toy.sane hl Toy.conversed_politely hfit hopen .acceptor 0).2 a ha
  exact ⟨l, a, hl, ha, hdata ▸ hfits.1⟩

end Link

end Ssproxy
