/-
  Ssproxy.Lib.Trunk

  Many lanes with flow control by credit on one trunk.  The opener asks for a
  lane, the acceptor confirms or refuses it.  On a lane an end may send as much
  as its window holds; the other end counts its own window down by what arrives
  and grants more.  All parcels to one end arrive in the order in which they were
  posted; otherwise the steps of the two ends come in any order.

  Every step keeps `Sound` (`Step.sound`): on a lane in use the window of the
  receiver is the window of the sender and all that is on the way
  (`Sound.conserved`).  So data always fits (`Sound.fits`), and no credit is lost
  to the cap (`Sound.uncapped`).
-/

import Mathlib.Data.List.Basic
import Mathlib.Logic.Function.Basic
import Mathlib.Algebra.Order.BigOperators.Group.List
import Mathlib.Algebra.Order.Ring.Nat
import Mathlib.Logic.Relation

namespace Ssproxy.Lib

/-- The end that asks for lanes, and the end that accepts them. -/
inductive End where
  | opener | acceptor
  deriving DecidableEq

def End.other : End → End
  | opener => acceptor
  | acceptor => opener

theorem End.other_other (e : End) : e.other.other = e := by cases e <;> rfl

theorem End.other_ne (e : End) : e.other ≠ e := by cases e <;> decide

/-- One end of a lane: its name at the other end, whether it may be used, what
    may be sent and received on it, and the most that may be received. -/
structure Lane (I : Type) where
  remote : Option I
  confirmed : Bool
  send : Nat
  recv : Nat
  limit : Nat

inductive Parcel (I : Type) where
  | ask (sender : I) (window : Nat)
  | confirm (target sender : I) (window : Nat)
  | refuse (target : I)
  | data (target : I) (n : Nat)
  | credit (target : I) (n : Nat)
  deriving DecidableEq

/-- The lanes of both ends, and the parcels on the way to each. -/
structure Trunk (I : Type) where
  lanes : End → I → Option (Lane I)
  mail : End → List (Parcel I)

/-- What a parcel says to the end of the lane that it is for. -/
inductive Note (I : Type) where
  | confirm (sender : I) (window : Nat)
  | refuse
  | data (n : Nat)
  | credit (n : Nat)

namespace Note

variable {I : Type}

/-- Data or credit. -/
def Flow : Note I → Prop
  | data _ | credit _ => True
  | _ => False

def data? : Note I → Option Nat
  | data n => some n
  | _ => none

def credit? : Note I → Option Nat
  | credit n => some n
  | _ => none

def window? : Note I → Option Nat
  | confirm _ w => some w
  | _ => none

end Note

/-- The data in the notes. -/
def dataIn {I : Type} (notes : List (Note I)) : Nat := (notes.filterMap Note.data?).sum

/-- The credit in the notes. -/
def creditIn {I : Type} (notes : List (Note I)) : Nat := (notes.filterMap Note.credit?).sum

/-- The window that a confirmation among the notes brings. -/
def windowIn {I : Type} (notes : List (Note I)) : Option Nat := (notes.filterMap Note.window?).head?

section Sums

variable {I : Type} {l : List (Note I)} {n : Nat}

theorem dataIn_append (l l' : List (Note I)) : dataIn (l ++ l') = dataIn l + dataIn l' := by
  simp [dataIn]

theorem creditIn_append (l l' : List (Note I)) : creditIn (l ++ l') = creditIn l + creditIn l' := by
  simp [creditIn]

theorem dataIn_data (n : Nat) (l : List (Note I)) : dataIn (.data n :: l) = n + dataIn l := by
  simp [dataIn, Note.data?]

theorem dataIn_credit (n : Nat) (l : List (Note I)) : dataIn (.credit n :: l) = dataIn l := by
  rw [dataIn, List.filterMap_cons_none rfl, dataIn]

theorem creditIn_data (n : Nat) (l : List (Note I)) : creditIn (.data n :: l) = creditIn l := by
  rw [creditIn, List.filterMap_cons_none rfl, creditIn]

theorem creditIn_credit (n : Nat) (l : List (Note I)) :
    creditIn (.credit n :: l) = n + creditIn l := by
  simp [creditIn, Note.credit?]

theorem dataIn_confirm (i : I) (w : Nat) (l : List (Note I)) :
    dataIn (.confirm i w :: l) = dataIn l := by
  rw [dataIn, List.filterMap_cons_none rfl, dataIn]

theorem creditIn_confirm (i : I) (w : Nat) (l : List (Note I)) :
    creditIn (.confirm i w :: l) = creditIn l := by
  rw [creditIn, List.filterMap_cons_none rfl, creditIn]

theorem windowIn_confirm (i : I) (w : Nat) (l : List (Note I)) :
    windowIn (.confirm i w :: l) = some w := rfl

theorem windowIn_flow (h : ∀ n ∈ l, n.Flow) : windowIn l = none := by
  have hnil : l.filterMap Note.window? = [] := by
    apply List.filterMap_eq_nil_iff.mpr
    intro n hn
    have hflow := h n hn
    cases n with
    | confirm i w => exact hflow.elim
    | _ => rfl
  rw [windowIn, hnil, List.head?_nil]

theorem dataIn_refuse (h : ∀ n ∈ l, n = .refuse) : dataIn l = 0 := by
  have hnil : l.filterMap Note.data? = [] := by
    apply List.filterMap_eq_nil_iff.mpr
    intro n hn
    rw [h n hn]
    rfl
  rw [dataIn, hnil, List.sum_nil]

end Sums

variable {I : Type} [DecidableEq I]

namespace Parcel

def noteFor (id : I) : Parcel I → Option (Note I)
  | ask _ _ => none
  | confirm target sender window => if target = id then some (.confirm sender window) else none
  | refuse target => if target = id then some .refuse else none
  | data target n => if target = id then some (.data n) else none
  | credit target n => if target = id then some (.credit n) else none

theorem noteFor_data (id : I) (n : Nat) : (data id n).noteFor id = some (.data n) := if_pos rfl

theorem noteFor_credit (id : I) (n : Nat) : (credit id n).noteFor id = some (.credit n) :=
  if_pos rfl

/-- Requests go to the acceptor, answers to the opener. -/
def For : End → Parcel I → Prop
  | .opener, ask _ _ => False
  | .acceptor, confirm _ _ _ | .acceptor, refuse _ => False
  | _, _ => True

/-- The window that comes with a request for lane `id`. -/
def askOf (id : I) : Parcel I → Option Nat
  | ask sender window => if sender = id then some window else none
  | _ => none

end Parcel

namespace Trunk

/-- What is on the way to lane `id` of an end. -/
def notes (t : Trunk I) (e : End) (id : I) : List (Note I) := (t.mail e).filterMap (Parcel.noteFor id)

/-- The requests for lane `id` on their way. -/
def asks (t : Trunk I) (id : I) : List Nat := (t.mail .acceptor).filterMap (Parcel.askOf id)

def put (t : Trunk I) (e : End) (id : I) (l : Option (Lane I)) : Trunk I :=
  { t with lanes := fun e' id' => if e' = e ∧ id' = id then l else t.lanes e' id' }

def post (t : Trunk I) (e : End) (parcels : List (Parcel I)) : Trunk I :=
  { t with mail := fun e' => if e' = e then t.mail e' ++ parcels else t.mail e' }

/-- The first parcel to an end arrives. -/
def take (t : Trunk I) (e : End) : Trunk I :=
  { t with mail := fun e' => if e' = e then (t.mail e').tail else t.mail e' }

-- ============================================================================
-- Steps
-- ============================================================================

/-- What one end does: it takes a parcel or none, writes its end of one lane, and
    posts parcels.  Credit adds up to `cap` at most, and a parcel may get lost
    before it is posted if that leaves a request without an answer. -/
inductive Stroke (cap : Nat) :
    End → Option (Parcel I) → I → Option (Lane I) → Option (Lane I) → List (Parcel I) → Prop where
  | ask {i : I} {w : Nat} {parcels : List (Parcel I)} (hw : w ≤ cap)
      (hp : parcels = [.ask i w] ∨ parcels = []) :
      Stroke cap .opener none i none (some ⟨none, false, 0, w, w⟩) parcels
  | accept {i j : I} {w v : Nat} (hv : v ≤ cap) :
      Stroke cap .acceptor (some (.ask i w)) j none (some ⟨some i, false, w, v, v⟩) []
  | confirm {i j : I} {a : Lane I} (hr : a.remote = some i) (hc : a.confirmed = false) :
      Stroke cap .acceptor none j (some a) (some { a with confirmed := true })
        [.confirm i j a.limit]
  | refuse {i j : I} {a : Lane I} {parcels : List (Parcel I)} (hr : a.remote = some i)
      (hc : a.confirmed = false) (hp : parcels = [.refuse i] ∨ parcels = []) :
      Stroke cap .acceptor none j (some a) none parcels
  | learn {i j : I} {w : Nat} {o : Lane I} :
      Stroke cap .opener (some (.confirm i j w)) i (some o)
        (some { o with remote := some j, confirmed := true, send := w }) []
  | giveUp {i : I} {l : Option (Lane I)} : Stroke cap .opener (some (.refuse i)) i l none []
  | send {e : End} {id r : I} {l : Lane I} {n : Nat} (hr : l.remote = some r)
      (hc : l.confirmed = true) (hn : n ≤ l.send) :
      Stroke cap e none id (some l) (some { l with send := l.send - n }) [.data r n]
  | grant {e : End} {id r : I} {l : Lane I} {n : Nat} (hr : l.remote = some r) (hpos : 0 < n)
      (hn : l.recv + n ≤ l.limit) :
      Stroke cap e none id (some l) (some { l with recv := l.recv + n }) [.credit r n]
  | arrive {e : End} {id : I} {l : Lane I} {n : Nat} (hn : n ≤ l.recv) :
      Stroke cap e (some (.data id n)) id (some l) (some { l with recv := l.recv - n }) []
  | gain {e : End} {id : I} {l : Lane I} {n : Nat} :
      Stroke cap e (some (.credit id n)) id (some l)
        (some { l with send := min (l.send + n) cap }) []

/-- The trunk after an end took the first parcel to it, if `taken` is one. -/
def taking (t : Trunk I) (e : End) : Option (Parcel I) → Trunk I
  | none => t
  | some _ => t.take e

/-- A stroke of either end. -/
inductive Step (cap : Nat) (t : Trunk I) : Trunk I → Prop where
  | mk {e : End} {taken : Option (Parcel I)} {id : I} {new : Option (Lane I)}
      {parcels rest : List (Parcel I)} (hm : t.mail e = taken.toList ++ rest)
      (h : Stroke cap e taken id (t.lanes e id) new parcels) :
      Step cap t (((t.taking e taken).put e id new).post e.other parcels)

-- ============================================================================
-- What a step changes
-- ============================================================================

section Changes

variable {t : Trunk I} {e : End} {p : Parcel I} {rest : List (Parcel I)}

theorem lanes_put_self (t : Trunk I) (e : End) (id : I) (l : Option (Lane I)) :
    (t.put e id l).lanes e id = l := if_pos ⟨rfl, rfl⟩

theorem lanes_put_ne (t : Trunk I) {e e' : End} {id id' : I} (l : Option (Lane I))
    (h : ¬(e' = e ∧ id' = id)) : (t.put e id l).lanes e' id' = t.lanes e' id' := if_neg h

theorem mail_put (t : Trunk I) (e : End) (id : I) (l : Option (Lane I)) :
    (t.put e id l).mail = t.mail := rfl

omit [DecidableEq I] in
theorem lanes_post (t : Trunk I) (e : End) (parcels : List (Parcel I)) :
    (t.post e parcels).lanes = t.lanes := rfl

omit [DecidableEq I] in
theorem mail_post_self (t : Trunk I) (e : End) (parcels : List (Parcel I)) :
    (t.post e parcels).mail e = t.mail e ++ parcels := if_pos rfl

omit [DecidableEq I] in
theorem mail_post_ne (t : Trunk I) {e e' : End} (parcels : List (Parcel I)) (h : e' ≠ e) :
    (t.post e parcels).mail e' = t.mail e' := if_neg h

omit [DecidableEq I] in
theorem lanes_take (t : Trunk I) (e : End) : (t.take e).lanes = t.lanes := rfl

omit [DecidableEq I] in
theorem mail_take_self (h : t.mail e = p :: rest) : (t.take e).mail e = rest := by
  show (if e = e then (t.mail e).tail else t.mail e) = rest
  rw [if_pos rfl, h, List.tail_cons]

omit [DecidableEq I] in
theorem mail_take_ne (t : Trunk I) {e e' : End} (h : e' ≠ e) : (t.take e).mail e' = t.mail e' :=
  if_neg h

end Changes

section Mail

variable {t : Trunk I} {p : Parcel I} {rest : List (Parcel I)}

theorem notes_put (t : Trunk I) (e : End) (id : I) (l : Option (Lane I)) :
    (t.put e id l).notes = t.notes := rfl

theorem asks_put (t : Trunk I) (e : End) (id : I) (l : Option (Lane I)) :
    (t.put e id l).asks = t.asks := rfl

theorem notes_post_self (t : Trunk I) (e : End) (parcels : List (Parcel I)) (id : I) :
    (t.post e parcels).notes e id = t.notes e id ++ parcels.filterMap (Parcel.noteFor id) := by
  rw [notes, mail_post_self, List.filterMap_append, notes]

theorem notes_post_ne (t : Trunk I) {e e' : End} (parcels : List (Parcel I)) (id : I)
    (h : e' ≠ e) : (t.post e parcels).notes e' id = t.notes e' id := by
  rw [notes, mail_post_ne t parcels h, notes]

theorem asks_post_acceptor (t : Trunk I) (parcels : List (Parcel I)) (id : I) :
    (t.post .acceptor parcels).asks id = t.asks id ++ parcels.filterMap (Parcel.askOf id) := by
  rw [asks, mail_post_self, List.filterMap_append, asks]

theorem asks_post_opener (t : Trunk I) (parcels : List (Parcel I)) (id : I) :
    (t.post .opener parcels).asks id = t.asks id := by
  rw [asks, mail_post_ne t parcels (by decide), asks]

theorem notes_take_self {e : End} (h : t.mail e = p :: rest) (id : I) :
    t.notes e id = (p.noteFor id).toList ++ (t.take e).notes e id := by
  rw [notes, notes, mail_take_self h, h, List.filterMap_cons]
  cases p.noteFor id <;> rfl

theorem notes_take_ne (t : Trunk I) {e e' : End} (id : I) (h : e' ≠ e) :
    (t.take e).notes e' id = t.notes e' id := by
  rw [notes, mail_take_ne t h, notes]

theorem asks_take_acceptor (h : t.mail .acceptor = p :: rest) (id : I) :
    t.asks id = (p.askOf id).toList ++ (t.take .acceptor).asks id := by
  rw [asks, asks, mail_take_self h, h, List.filterMap_cons]
  cases p.askOf id <;> rfl

theorem asks_take_opener (t : Trunk I) (id : I) : (t.take .opener).asks id = t.asks id := by
  rw [asks, mail_take_ne t (by decide), asks]

end Mail

section Ends

variable {t t' : Trunk I} {e : End} {id : I} {new : Option (Lane I)} {taken : Option (Parcel I)}
  {parcels rest : List (Parcel I)} {cap : Nat}

omit [DecidableEq I] in
/-- A trunk is its two ends. -/
theorem ext_of_end (e : End) (hl : t.lanes e = t'.lanes e)
    (hlo : t.lanes e.other = t'.lanes e.other) (hm : t.mail e = t'.mail e)
    (hmo : t.mail e.other = t'.mail e.other) : t = t' := by
  have hboth : ∀ e', e' = e ∨ e' = e.other := by cases e <;> intro e' <;> cases e' <;> simp [End.other]
  have hlanes : t.lanes = t'.lanes := by
    funext e'
    rcases hboth e' with rfl | rfl
    · exact hl
    · exact hlo
  have hmail : t.mail = t'.mail := by
    funext e'
    rcases hboth e' with rfl | rfl
    · exact hm
    · exact hmo
  obtain ⟨lanes, mail⟩ := t
  exact congrArg₂ Trunk.mk hlanes hmail

omit [DecidableEq I] in
theorem mail_taking (hm : t.mail e = taken.toList ++ rest) :
    (t.taking e taken).mail e = rest ∧ (t.taking e taken).mail e.other = t.mail e.other := by
  cases taken with
  | none => exact ⟨hm, rfl⟩
  | some p => exact ⟨mail_take_self hm, mail_take_ne t e.other_ne⟩

omit [DecidableEq I] in
theorem lanes_taking (t : Trunk I) (e : End) (taken : Option (Parcel I)) :
    (t.taking e taken).lanes = t.lanes := by
  cases taken <;> rfl

/-- A step, by what it makes of either end. -/
theorem Step.of_end (hm : t.mail e = taken.toList ++ rest)
    (hs : Stroke cap e taken id (t.lanes e id) new parcels)
    (hl : t'.lanes e = Function.update (t.lanes e) id new)
    (hlo : t'.lanes e.other = t.lanes e.other) (hrest : t'.mail e = rest)
    (hmo : t'.mail e.other = t.mail e.other ++ parcels) : Step cap t t' := by
  obtain ⟨htake, hback⟩ := mail_taking hm
  have hsame : t' = ((t.taking e taken).put e id new).post e.other parcels := by
    apply ext_of_end e
    · rw [hl, lanes_post]
      funext id'
      by_cases hid : id' = id
      · subst hid
        rw [Function.update_self, lanes_put_self]
      · rw [Function.update_of_ne hid, lanes_put_ne _ _ fun h => hid h.2, lanes_taking]
    · rw [hlo, lanes_post]
      funext id'
      rw [lanes_put_ne _ _ fun h => e.other_ne h.1, lanes_taking]
    · rw [hrest, mail_post_ne _ _ e.other_ne.symm, mail_put, htake]
    · rw [hmo, mail_post_self, mail_put, hback]
  rw [hsame]
  exact .mk hm hs

end Ends

-- ============================================================================
-- The invariant
-- ============================================================================

/-- Lane `j` of the acceptor is the one for lane `i` of the opener. -/
structure Sole (t : Trunk I) (i j : I) (a : Lane I) : Prop where
  lane : t.lanes .acceptor j = some a
  remote : a.remote = some i
  only : ∀ j' a', t.lanes .acceptor j' = some a' → a'.remote = some i → j' = j

/-- Lane `i` of the opener is lane `j` of the acceptor, and both are in use.  The
    opener may send `x`, as soon as it knows; `rest` is on the way to it. -/
structure Joined (t : Trunk I) (i j : I) (a o : Lane I) (x : Nat) (rest : List (Note I)) :
    Prop where
  sole : Sole t i j a
  confirmed : a.confirmed = true
  lane : t.lanes .opener i = some o
  known : o.remote = none ∧ t.notes .opener i = .confirm j x :: rest ∨
    o.remote = some j ∧ o.confirmed = true ∧ o.send = x ∧ t.notes .opener i = rest
  flow : ∀ n ∈ rest, n.Flow
  asks : t.asks i = []
  down : o.recv = a.send + dataIn rest + creditIn (t.notes .acceptor j)
  up : a.recv = x + dataIn (t.notes .acceptor j) + creditIn rest

/-- How far lane `i` of the opener has got. -/
inductive Stage (t : Trunk I) (i : I) : Prop where
  /-- The acceptor has no lane for it: it is asked for, refused, or there is none. -/
  | apart (hacc : ∀ j a, t.lanes .acceptor j = some a → a.remote ≠ some i)
      (hmail : ∀ n ∈ t.notes .opener i, n = .refuse)
      (hcount : (t.asks i).length + (t.notes .opener i).length
        ≤ if (t.lanes .opener i).isSome then 1 else 0)
      (hlane : ∀ o, t.lanes .opener i = some o → o.remote = none ∧ ∀ w ∈ t.asks i, w = o.recv)
  /-- The acceptor has not decided yet. -/
  | held {j : I} {a o : Lane I} (hsole : Sole t i j a) (hc : a.confirmed = false)
      (ho : t.lanes .opener i = some o) (hr : o.remote = none) (hmail : t.notes .opener i = [])
      (hasks : t.asks i = []) (hrecv : a.recv = a.limit) (hsend : o.recv = a.send)
  | joined {j : I} {a o : Lane I} {x : Nat} {rest : List (Note I)} (h : Joined t i j a o x rest)

/-- The invariant of a trunk. -/
structure Sound (cap : Nat) (t : Trunk I) : Prop where
  bounded : ∀ e id l, t.lanes e id = some l → l.recv ≤ l.limit ∧ l.limit ≤ cap
  named : ∀ j a, t.lanes .acceptor j = some a → a.remote ≠ none
  unused : ∀ i o, t.lanes .opener i = some o → o.remote = none → o.recv = o.limit
  oneWay : ∀ p ∈ t.mail .opener, ∀ id, p.askOf id = none
  up : ∀ j n, n ∈ t.notes .acceptor j → n.Flow ∧
    ∃ i o, t.lanes .opener i = some o ∧ o.remote = some j
  stage : ∀ i, Stage t i

/-- Nothing has changed that the stage of lane `i` depends on. -/
structure Same (i : I) (t t' : Trunk I) : Prop where
  lane : t'.lanes .opener i = t.lanes .opener i
  acceptor : ∀ j a, a.remote = some i →
    (t'.lanes .acceptor j = some a ↔ t.lanes .acceptor j = some a)
  notes : t'.notes .opener i = t.notes .opener i
  asks : t'.asks i = t.asks i
  up : ∀ j a, t.lanes .acceptor j = some a → a.remote = some i →
    t'.notes .acceptor j = t.notes .acceptor j

variable {t t' : Trunk I} {i j : I} {a o : Lane I} {x cap : Nat} {rest : List (Note I)}

theorem Sole.same (h : Sole t i j a) (hs : Same i t t') : Sole t' i j a where
  lane := (hs.acceptor j a h.remote).mpr h.lane
  remote := h.remote
  only j' a' hj hr := h.only j' a' ((hs.acceptor j' a' hr).mp hj) hr

theorem Joined.same (h : Joined t i j a o x rest) (hs : Same i t t') :
    Joined t' i j a o x rest := by
  have hup := hs.up j a h.sole.lane h.sole.remote
  refine ⟨h.sole.same hs, h.confirmed, hs.lane.trans h.lane, ?_, h.flow, hs.asks.trans h.asks, ?_, ?_⟩
  · rw [hs.notes]
    exact h.known
  · rw [hup]
    exact h.down
  · rw [hup]
    exact h.up

theorem Stage.same (h : Stage t i) (hs : Same i t t') : Stage t' i := by
  cases h with
  | apart hacc hmail hcount hlane =>
    apply Stage.apart
    · intro j a hj hr
      exact hacc j a ((hs.acceptor j a hr).mp hj) hr
    · rw [hs.notes]
      exact hmail
    · rw [hs.asks, hs.notes, hs.lane]
      exact hcount
    · rw [hs.asks, hs.lane]
      exact hlane
  | held hsole hc ho hr hmail hasks hrecv hsend =>
    exact .held (hsole.same hs) hc (hs.lane.trans ho) hr (hs.notes.trans hmail)
      (hs.asks.trans hasks) hrecv hsend
  | joined h => exact .joined (h.same hs)

-- ============================================================================
-- The other lanes
-- ============================================================================

section Others

variable {i' : I} {l : Option (Lane I)} {p : Parcel I} {parcels rest : List (Parcel I)}

/-- A write to a lane of the acceptor, seen from the lanes with another name. -/
theorem acceptor_put (hold : ∀ b, t.lanes .acceptor j = some b → b.remote ≠ some i')
    (hnew : ∀ b, l = some b → b.remote ≠ some i') (j' : I) (a : Lane I) (hr : a.remote = some i') :
    (t.put .acceptor j l).lanes .acceptor j' = some a ↔ t.lanes .acceptor j' = some a := by
  by_cases hj : j' = j
  · subst hj
    rw [lanes_put_self]
    exact ⟨fun h => absurd hr (hnew a h), fun h => absurd hr (hold a h)⟩
  · rw [lanes_put_ne t l fun h => hj h.2]

theorem same_post_acceptor (hne : i' ≠ i) (hask : parcels.filterMap (Parcel.askOf i') = [])
    (hnote : ∀ j a, t.lanes .acceptor j = some a → a.remote = some i' →
      parcels.filterMap (Parcel.noteFor j) = []) :
    Same i' t ((t.put .opener i l).post .acceptor parcels) where
  lane := by
    rw [lanes_post, lanes_put_ne t l fun h => hne h.2]
  acceptor j a _ := by
    rw [lanes_post, lanes_put_ne t l fun h => End.noConfusion h.1]
  notes := notes_post_ne _ _ _ (by decide)
  asks := by rw [asks_post_acceptor, hask, List.append_nil, asks_put]
  up j a hj hr := by rw [notes_post_self, hnote j a hj hr, List.append_nil, notes_put]

theorem same_post_opener (hold : ∀ b, t.lanes .acceptor j = some b → b.remote ≠ some i')
    (hnew : ∀ b, l = some b → b.remote ≠ some i')
    (hnote : parcels.filterMap (Parcel.noteFor i') = []) :
    Same i' t ((t.put .acceptor j l).post .opener parcels) where
  lane := by
    rw [lanes_post, lanes_put_ne t l fun h => End.noConfusion h.1]
  acceptor := acceptor_put hold hnew
  notes := by rw [notes_post_self, hnote, List.append_nil, notes_put]
  asks := asks_post_opener _ _ _
  up j a hj hr := notes_post_ne _ _ _ (by decide)

theorem same_take_opener (hm : t.mail .opener = p :: rest) (hne : i' ≠ i)
    (hnote : p.noteFor i' = none) : Same i' t ((t.take .opener).put .opener i l) where
  lane := lanes_put_ne _ l fun h => hne h.2
  acceptor j a _ := by
    rw [lanes_put_ne _ l fun h => End.noConfusion h.1, lanes_take]
  notes := by
    rw [notes_take_self hm i', hnote]
    rfl
  asks := asks_take_opener t i'
  up j a hj hr := by
    rw [notes_put, notes_take_ne t j (by decide)]

theorem same_take_acceptor (hm : t.mail .acceptor = p :: rest)
    (hold : ∀ b, t.lanes .acceptor j = some b → b.remote ≠ some i')
    (hnew : ∀ b, l = some b → b.remote ≠ some i') (hask : p.askOf i' = none)
    (hnote : ∀ j a, t.lanes .acceptor j = some a → a.remote = some i' → p.noteFor j = none) :
    Same i' t ((t.take .acceptor).put .acceptor j l) where
  lane := by
    rw [lanes_put_ne _ l fun h => End.noConfusion h.1, lanes_take]
  acceptor := acceptor_put (t := t.take .acceptor) hold hnew
  notes := by
    rw [notes_put, notes_take_ne t i' (by decide)]
  asks := by
    rw [asks_take_acceptor hm i', hask]
    rfl
  up j a hj hr := by
    rw [notes_take_self hm j, hnote j a hj hr]
    rfl

end Others

-- ============================================================================
-- Which stage a lane is in
-- ============================================================================

namespace Sound

theorem of_known (h : Sound cap t) (ho : t.lanes .opener i = some o) (hr : o.remote = some j) :
    ∃ a, Joined t i j a o o.send (t.notes .opener i) ∧ o.confirmed = true := by
  cases h.stage i with
  | apart hacc hmail hcount hlane => cases hr.symm.trans (hlane o ho).1
  | held hsole hc ho' hr' =>
    cases ho.symm.trans ho'
    cases hr.symm.trans hr'
  | joined hj =>
    cases ho.symm.trans hj.lane
    rcases hj.known with ⟨hnone, -⟩ | ⟨hr', hc, rfl, rfl⟩
    · cases hr.symm.trans hnone
    · cases hr.symm.trans hr'
      exact ⟨_, hj, hc⟩

theorem of_confirmed (h : Sound cap t) (ha : t.lanes .acceptor j = some a)
    (hr : a.remote = some i) (hc : a.confirmed = true) : ∃ o x rest, Joined t i j a o x rest := by
  cases h.stage i with
  | apart hacc => exact absurd hr (hacc j a ha)
  | held hsole hc' =>
    obtain rfl := hsole.only j a ha hr
    cases ha.symm.trans hsole.lane
    cases hc.symm.trans hc'
  | joined hj =>
    obtain rfl := hj.sole.only j a ha hr
    cases ha.symm.trans hj.sole.lane
    exact ⟨_, _, _, hj⟩

theorem of_undecided (h : Sound cap t) (ha : t.lanes .acceptor j = some a)
    (hr : a.remote = some i) (hc : a.confirmed = false) : Sole t i j a ∧
      ∃ o, t.lanes .opener i = some o ∧ o.remote = none ∧ t.notes .opener i = [] ∧
        t.asks i = [] ∧ a.recv = a.limit ∧ o.recv = a.send := by
  cases h.stage i with
  | apart hacc => exact absurd hr (hacc j a ha)
  | held hsole hc' ho hr' hmail hasks hrecv hsend =>
    obtain rfl := hsole.only j a ha hr
    cases ha.symm.trans hsole.lane
    exact ⟨hsole, _, ho, hr', hmail, hasks, hrecv, hsend⟩
  | joined hj =>
    obtain rfl := hj.sole.only j a ha hr
    cases ha.symm.trans hj.sole.lane
    cases hc.symm.trans hj.confirmed

/-- Only a lane in use has data or credit on the way to its acceptor. -/
theorem of_up (h : Sound cap t) {n : Note I} (hn : n ∈ t.notes .acceptor j) :
    ∃ i a o, Joined t i j a o o.send (t.notes .opener i) ∧ o.remote = some j ∧
      o.confirmed = true := by
  obtain ⟨-, i, o, ho, hr⟩ := h.up j n hn
  obtain ⟨a, hj, hc⟩ := h.of_known ho hr
  exact ⟨i, a, o, hj, hr, hc⟩

/-- Data or credit that comes first for a lane of the opener finds it in use. -/
theorem of_down (h : Sound cap t) {n : Note I} {tail : List (Note I)}
    (hn : t.notes .opener i = n :: tail) (hflow : n.Flow) :
    ∃ j a o, Joined t i j a o o.send (n :: tail) ∧ o.remote = some j ∧ o.confirmed = true := by
  cases h.stage i with
  | apart hacc hmail =>
    rw [hmail n (by rw [hn]; exact List.mem_cons_self)] at hflow
    exact hflow.elim
  | held hsole hc ho hr hmail => cases hn.symm.trans hmail
  | joined hj =>
    rcases hj.known with ⟨-, hc⟩ | ⟨hr, hc, rfl, hrest⟩
    · cases hn.symm.trans hc
      exact hflow.elim
    · rw [hn] at hrest
      subst hrest
      exact ⟨_, _, _, hj, hr, hc⟩

theorem up_eq_nil (h : Sound cap t) (ha : t.lanes .acceptor j = some a)
    (hc : a.confirmed = false) : t.notes .acceptor j = [] := by
  apply List.eq_nil_iff_forall_not_mem.mpr
  intro n hn
  obtain ⟨i, a', o, hj, hr, -⟩ := h.of_up hn
  obtain ⟨b, hb⟩ : ∃ b, Joined t i j b o o.send (t.notes .opener i) := by
    obtain ⟨b, hb, -⟩ := h.of_known hj.lane hr
    exact ⟨b, hb⟩
  cases ha.symm.trans hb.sole.lane
  cases hc.symm.trans hb.confirmed

end Sound

-- ============================================================================
-- A step
-- ============================================================================

section Steps

variable {i' : I} {w v n : Nat} {p : Parcel I} {parcels mail : List (Parcel I)} {e : End} {l : Lane I}

theorem stage_ask (h : Stage t i) (hfree : t.lanes .opener i = none)
    (hp : parcels = [.ask i w] ∨ parcels = []) :
    Stage ((t.put .opener i (some ⟨none, false, 0, w, w⟩)).post .acceptor parcels) i := by
  cases h with
  | held hsole hc ho => cases hfree.symm.trans ho
  | joined hj => cases hfree.symm.trans hj.lane
  | apart hacc hmail hcount hlane =>
    rw [hfree] at hcount
    have hcount : (t.asks i).length + (t.notes .opener i).length ≤ 0 := hcount
    have hnone : t.asks i = [] := List.length_eq_zero_iff.mp (by omega)
    have hlanes : ((t.put .opener i (some ⟨none, false, 0, w, w⟩)).post .acceptor parcels).lanes
        .opener i = some ⟨none, false, 0, w, w⟩ := lanes_put_self _ _ _ _
    have hasks : ∀ w' ∈ parcels.filterMap (Parcel.askOf i), w' = w := by
      rcases hp with rfl | rfl <;> simp [Parcel.askOf]
    have hlen : (parcels.filterMap (Parcel.askOf i)).length ≤ 1 := by
      rcases hp with rfl | rfl <;> simp [Parcel.askOf]
    have hnotes : ((t.put .opener i (some ⟨none, false, 0, w, w⟩)).post .acceptor parcels).notes
        .opener i = t.notes .opener i := notes_post_ne _ _ _ (by decide)
    apply Stage.apart
    · intro j a ha
      rw [lanes_post, lanes_put_ne _ _ fun h => End.noConfusion h.1] at ha
      exact hacc j a ha
    · rw [hnotes]
      exact hmail
    · rw [hnotes, hlanes, asks_post_acceptor, asks_put, hnone, List.nil_append]
      show _ ≤ 1
      omega
    · intro o ho
      cases hlanes.symm.trans ho
      rw [asks_post_acceptor, asks_put, hnone, List.nil_append]
      exact ⟨rfl, hasks⟩

theorem stage_accept (h : Stage t i) (hm : t.mail .acceptor = .ask i w :: mail) :
    Stage ((t.take .acceptor).put .acceptor j (some ⟨some i, false, w, v, v⟩)) i := by
  have hasks : t.asks i = w :: (t.take .acceptor).asks i := by
    rw [asks_take_acceptor hm i, Parcel.askOf, if_pos rfl]
    rfl
  cases h with
  | held hsole hc ho hr hmail hnone => cases hnone.symm.trans hasks
  | joined hj => cases hj.asks.symm.trans hasks
  | apart hacc hmail hcount hlane =>
    rw [hasks, List.length_cons] at hcount
    cases ho : t.lanes .opener i with
    | none =>
      rw [ho] at hcount
      have hcount : _ ≤ 0 := hcount
      omega
    | some o =>
      rw [ho] at hcount
      have hcount : _ ≤ 1 := hcount
      obtain ⟨hr, hw⟩ := hlane o ho
      have hw : w = o.recv := hw w (by rw [hasks]; exact List.mem_cons_self)
      refine .held ⟨lanes_put_self _ _ _ _, rfl, fun j' a' ha hr => ?_⟩ rfl (a := ⟨some i, false, w, v, v⟩)
        ?_ hr ?_ ?_ rfl hw.symm
      · by_contra hj
        rw [lanes_put_ne _ _ fun h => hj h.2] at ha
        exact hacc j' a' ha hr
      · rw [lanes_put_ne _ _ fun h => End.noConfusion h.1, lanes_take]
        exact ho
      · rw [notes_put, notes_take_ne _ _ (by decide)]
        exact List.length_eq_zero_iff.mp (by omega)
      · rw [asks_put]
        exact List.length_eq_zero_iff.mp (by omega)

theorem Sole.put (h : Sole t i j a) {b : Lane I} (hr : b.remote = some i)
    (hl : t'.lanes .acceptor = (t.put .acceptor j (some b)).lanes .acceptor) : Sole t' i j b where
  lane := by rw [hl, lanes_put_self]
  remote := hr
  only j' b' hb' hr' := by
    by_contra hj
    rw [hl, lanes_put_ne _ _ fun h => hj h.2] at hb'
    exact hj (h.only j' b' hb' hr')

omit [DecidableEq I] in
theorem Sole.of_lanes (h : Sole t i j a) (hl : t'.lanes .acceptor = t.lanes .acceptor) :
    Sole t' i j a where
  lane := by rw [hl, h.lane]
  remote := h.remote
  only j' b hb hr := by
    rw [hl] at hb
    exact h.only j' b hb hr

theorem put_acceptor (t : Trunk I) (i : I) (l : Option (Lane I)) :
    (t.put .opener i l).lanes .acceptor = t.lanes .acceptor := by
  funext id
  exact lanes_put_ne t l fun h => End.noConfusion h.1

theorem put_opener (t : Trunk I) (j : I) (l : Option (Lane I)) :
    (t.put .acceptor j l).lanes .opener = t.lanes .opener := by
  funext id
  exact lanes_put_ne t l fun h => End.noConfusion h.1

theorem stage_confirm (h : Sound cap t) (ha : t.lanes .acceptor j = some a)
    (hr : a.remote = some i) (hc : a.confirmed = false) :
    Stage ((t.put .acceptor j (some { a with confirmed := true })).post .opener
      [.confirm i j a.limit]) i := by
  obtain ⟨hsole, o, ho, hnone, hmail, hasks, hrecv, hsend⟩ := h.of_undecided ha hr hc
  have hup := h.up_eq_nil ha hc
  have hnotes : ((t.put .acceptor j (some { a with confirmed := true })).post .opener
      [.confirm i j a.limit]).notes .opener i = [.confirm j a.limit] := by
    rw [notes_post_self, notes_put, hmail, List.nil_append]
    exact List.filterMap_cons_some (if_pos rfl)
  have hlanes : ((t.put .acceptor j (some { a with confirmed := true })).post .opener
      [.confirm i j a.limit]).notes .acceptor j = [] := by
    rw [notes_post_ne _ _ _ (by decide), notes_put, hup]
  suffices h : Joined _ i j { a with confirmed := true } o a.limit [] from .joined h
  refine ⟨hsole.put hr rfl, rfl, ?_, .inl ⟨hnone, hnotes⟩, List.forall_mem_nil _, ?_, ?_, ?_⟩
  · rw [lanes_post, put_opener]
    exact ho
  · rw [asks_post_opener, asks_put, hasks]
  · rw [hlanes]
    exact hsend
  · rw [hlanes]
    exact hrecv

theorem stage_refuse (h : Sound cap t) (ha : t.lanes .acceptor j = some a)
    (hr : a.remote = some i) (hc : a.confirmed = false)
    (hp : parcels = [.refuse i] ∨ parcels = []) :
    Stage ((t.put .acceptor j none).post .opener parcels) i := by
  obtain ⟨hsole, o, ho, hnone, hmail, hasks, -, -⟩ := h.of_undecided ha hr hc
  have hnotes : ((t.put .acceptor j none).post .opener parcels).notes .opener i
      = parcels.filterMap (Parcel.noteFor i) := by
    rw [notes_post_self, notes_put, hmail, List.nil_append]
  have hasks' : ((t.put .acceptor j none).post .opener parcels).asks i = [] := by
    rw [asks_post_opener, asks_put, hasks]
  have ho' : ((t.put .acceptor j none).post .opener parcels).lanes .opener i = some o := by
    rw [lanes_post, put_opener, ho]
  apply Stage.apart
  · intro j' a' ha' hr'
    by_cases hj : j' = j
    · subst hj
      rw [lanes_post, lanes_put_self] at ha'
      cases ha'
    · rw [lanes_post, lanes_put_ne _ _ fun h => hj h.2] at ha'
      exact hj (hsole.only j' a' ha' hr')
  · rw [hnotes]
    rcases hp with rfl | rfl <;> simp [Parcel.noteFor]
  · rw [hasks', hnotes, ho']
    rcases hp with rfl | rfl <;> simp [Parcel.noteFor]
  · intro o' ho''
    cases ho'.symm.trans ho''
    rw [hasks']
    exact ⟨hnone, fun w hw => by cases hw⟩

theorem stage_learn (h : Joined t i j a o w rest) (hm : t.mail .opener = .confirm i j w :: mail) :
    Stage ((t.take .opener).put .opener i
      (some { o with remote := some j, confirmed := true, send := w })) i := by
  have hnotes : t.notes .opener i = .confirm j w :: (t.take .opener).notes .opener i := by
    rw [notes_take_self hm i, Parcel.noteFor, if_pos rfl]
    rfl
  have hrest : (t.take .opener).notes .opener i = rest := by
    rcases h.known with ⟨-, hk⟩ | ⟨-, -, -, hk⟩
    · cases hnotes.symm.trans hk
      rfl
    · have := h.flow (.confirm j w) (by rw [← hk, hnotes]; exact List.mem_cons_self)
      exact this.elim
  have hup : ((t.take .opener).put .opener i
      (some { o with remote := some j, confirmed := true, send := w })).notes .acceptor j
        = t.notes .acceptor j := by
    rw [notes_put, notes_take_ne t j (by decide)]
  suffices hj : Joined _ i j a { o with remote := some j, confirmed := true, send := w } w rest from
    .joined hj
  refine ⟨h.sole.of_lanes (put_acceptor _ _ _), h.confirmed, lanes_put_self _ _ _ _,
    .inr ⟨rfl, rfl, rfl, hrest⟩, h.flow, ?_, ?_, ?_⟩
  · rw [asks_put, asks_take_opener, h.asks]
  · rw [hup]
    exact h.down
  · rw [hup]
    exact h.up

theorem stage_giveUp (h : Stage t i) (hm : t.mail .opener = .refuse i :: mail) :
    Stage ((t.take .opener).put .opener i none) i ∧
      ∀ o, t.lanes .opener i = some o → o.remote = none := by
  have hnotes : t.notes .opener i = .refuse :: (t.take .opener).notes .opener i := by
    rw [notes_take_self hm i, Parcel.noteFor, if_pos rfl]
    rfl
  cases h with
  | held hsole hc ho hr hmail => cases hmail.symm.trans hnotes
  | joined hj =>
    rcases hj.known with ⟨-, hk⟩ | ⟨-, -, -, hk⟩
    · cases hnotes.symm.trans hk
    · have := hj.flow .refuse (by rw [← hk, hnotes]; exact List.mem_cons_self)
      exact this.elim
  | apart hacc hmail hcount hlane =>
    refine ⟨?_, fun o ho => (hlane o ho).1⟩
    rw [hnotes, List.length_cons] at hcount
    have hle : (if (t.lanes .opener i).isSome then 1 else 0) ≤ 1 := by split <;> omega
    have hasks : t.asks i = [] := List.length_eq_zero_iff.mp (by omega)
    have hnil : (t.take .opener).notes .opener i = [] := List.length_eq_zero_iff.mp (by omega)
    apply Stage.apart
    · intro j a ha
      rw [put_acceptor, lanes_take] at ha
      exact hacc j a ha
    · rw [notes_put, hnil]
      intro n hn
      cases hn
    · rw [asks_put, asks_take_opener, hasks, notes_put, hnil]
      exact Nat.zero_le _
    · intro o ho
      rw [lanes_put_self] at ho
      cases ho

/-- The opener writes its end of a lane in use and posts a parcel for the other. -/
theorem Joined.post_acceptor (h : Joined t i j a o x rest) (hr : o.remote = some j) {b : Lane I}
    {m : Note I} (hbr : b.remote = some j) (hbc : b.confirmed = true)
    (hp : p.noteFor j = some m) (hask : p.askOf i = none)
    (hdown : b.recv = a.send + dataIn rest + (creditIn (t.notes .acceptor j) + creditIn [m]))
    (hup : a.recv = b.send + (dataIn (t.notes .acceptor j) + dataIn [m]) + creditIn rest) :
    Joined ((t.put .opener i (some b)).post .acceptor [p]) i j a b b.send rest := by
  have hnotes : ((t.put .opener i (some b)).post .acceptor [p]).notes .acceptor j
      = t.notes .acceptor j ++ [m] := by
    rw [notes_post_self, notes_put, List.filterMap_cons_some hp, List.filterMap_nil]
  have hrest : t.notes .opener i = rest := by
    rcases h.known with ⟨hnone, -⟩ | ⟨-, -, -, hk⟩
    · cases hr.symm.trans hnone
    · exact hk
  refine ⟨h.sole.of_lanes (put_acceptor t i (some b)), h.confirmed, lanes_put_self _ _ _ _,
    .inr ⟨hbr, hbc, rfl, ?_⟩, h.flow, ?_, ?_, ?_⟩
  · rw [notes_post_ne _ _ _ (by decide), notes_put, hrest]
  · rw [asks_post_acceptor, asks_put, h.asks, List.filterMap_cons_none hask]
    rfl
  · rw [hnotes, creditIn_append]
    exact hdown
  · rw [hnotes, dataIn_append]
    exact hup

/-- The same for the acceptor. -/
theorem Joined.post_opener (h : Joined t i j a o x rest) {b : Lane I} {m : Note I}
    (hbr : b.remote = some i) (hbc : b.confirmed = true) (hp : p.noteFor i = some m)
    (hflow : m.Flow)
    (hdown : o.recv = b.send + (dataIn rest + dataIn [m]) + creditIn (t.notes .acceptor j))
    (hup : b.recv = x + dataIn (t.notes .acceptor j) + (creditIn rest + creditIn [m])) :
    Joined ((t.put .acceptor j (some b)).post .opener [p]) i j b o x (rest ++ [m]) := by
  have hnotes : ((t.put .acceptor j (some b)).post .opener [p]).notes .opener i
      = t.notes .opener i ++ [m] := by
    rw [notes_post_self, notes_put, List.filterMap_cons_some hp, List.filterMap_nil]
  have hsame : ((t.put .acceptor j (some b)).post .opener [p]).notes .acceptor j
      = t.notes .acceptor j := by
    rw [notes_post_ne _ _ _ (by decide), notes_put]
  refine ⟨h.sole.put hbr rfl, hbc, ?_, ?_, ?_, ?_, ?_, ?_⟩
  · rw [lanes_post, put_opener, h.lane]
  · rw [hnotes]
    rcases h.known with ⟨hnone, hk⟩ | ⟨hr, hc, hx, hk⟩
    · exact .inl ⟨hnone, by rw [hk, List.cons_append]⟩
    · exact .inr ⟨hr, hc, hx, by rw [hk]⟩
  · intro k hk
    rcases List.mem_append.mp hk with hk | hk
    · exact h.flow k hk
    · rw [List.mem_singleton.mp hk]
      exact hflow
  · rw [asks_post_opener, asks_put, h.asks]
  · rw [hsame, dataIn_append]
    exact hdown
  · rw [hsame, creditIn_append]
    exact hup

/-- A parcel for a lane in use arrives at the opener. -/
theorem Joined.take_opener {m : Note I} (h : Joined t i j a o x (m :: rest))
    (hr : o.remote = some j) {b : Lane I} (hbr : b.remote = some j) (hbc : b.confirmed = true)
    (hm : t.mail .opener = p :: mail) (hp : p.noteFor i = some m)
    (hdown : b.recv = a.send + dataIn rest + creditIn (t.notes .acceptor j))
    (hup : a.recv = b.send + dataIn (t.notes .acceptor j) + creditIn rest) :
    Joined ((t.take .opener).put .opener i (some b)) i j a b b.send rest := by
  have hrest : (t.take .opener).notes .opener i = rest := by
    rcases h.known with ⟨hnone, -⟩ | ⟨-, -, -, hk⟩
    · cases hr.symm.trans hnone
    · rw [notes_take_self hm i, hp] at hk
      exact (List.cons.inj hk).2
  have hsame : ((t.take .opener).put .opener i (some b)).notes .acceptor j
      = t.notes .acceptor j := by
    rw [notes_put, notes_take_ne t j (by decide)]
  refine ⟨h.sole.of_lanes (put_acceptor _ _ _), h.confirmed, lanes_put_self _ _ _ _,
    .inr ⟨hbr, hbc, rfl, hrest⟩, fun k hk => h.flow k (List.mem_cons_of_mem m hk), ?_, ?_, ?_⟩
  · rw [asks_put, asks_take_opener, h.asks]
  · rw [hsame]
    exact hdown
  · rw [hsame]
    exact hup

/-- The same for the acceptor. -/
theorem Joined.take_acceptor (h : Joined t i j a o x rest) {tail : List (Note I)} {b : Lane I}
    (hbr : b.remote = some i) (hbc : b.confirmed = true)
    (hm : t.mail .acceptor = p :: mail) (hask : p.askOf i = none)
    (htail : (t.take .acceptor).notes .acceptor j = tail)
    (hdown : o.recv = b.send + dataIn rest + creditIn tail)
    (hup : b.recv = x + dataIn tail + creditIn rest) :
    Joined ((t.take .acceptor).put .acceptor j (some b)) i j b o x rest := by
  have hsame : ((t.take .acceptor).put .acceptor j (some b)).notes .opener i
      = t.notes .opener i := by
    rw [notes_put, notes_take_ne t i (by decide)]
  have hasks := h.asks
  rw [asks_take_acceptor hm i, hask] at hasks
  refine ⟨h.sole.put hbr rfl, hbc, ?_, ?_, h.flow, hasks, ?_, ?_⟩
  · rw [put_opener, lanes_take, h.lane]
  · rw [hsame]
    exact h.known
  · rw [notes_put, htail]
    exact hdown
  · rw [notes_put, htail]
    exact hup

end Steps

-- ============================================================================
-- The invariant is kept
-- ============================================================================

namespace Sound

section Kept

variable {i' : I} {w v n : Nat} {p : Parcel I} {parcels mail : List (Parcel I)} {e : End} {l : Lane I}

/-- A step that writes lane `i` of the opener. -/
theorem of_opener (h : Sound cap t) {l : Option (Lane I)}
    (hlanes : t'.lanes = (t.put .opener i l).lanes)
    (hbound : ∀ b, l = some b → b.recv ≤ b.limit ∧ b.limit ≤ cap)
    (hunused : ∀ b, l = some b → b.remote = none → b.recv = b.limit)
    (hkeep : ∀ o r, t.lanes .opener i = some o → o.remote = some r →
      ∃ b, l = some b ∧ b.remote = some r)
    (hup : ∀ j n, n ∈ t'.notes .acceptor j → n ∈ t.notes .acceptor j ∨
      n.Flow ∧ ∃ b, l = some b ∧ b.remote = some j)
    (hone : ∀ p ∈ t'.mail .opener, p ∈ t.mail .opener)
    (hstage : Stage t' i) (hothers : ∀ i', i' ≠ i → Same i' t t') : Sound cap t' := by
  have hself : t'.lanes .opener i = l := by rw [hlanes, lanes_put_self]
  have hne : ∀ e i', ¬(e = .opener ∧ i' = i) → t'.lanes e i' = t.lanes e i' := by
    intro e i' hne
    rw [hlanes, lanes_put_ne t l hne]
  refine ⟨fun e i' b hb => ?_, fun j a ha => ?_, fun i' o ho hr => ?_,
    fun p hp => h.oneWay p (hone p hp), fun j n hn => ?_, fun i' => ?_⟩
  · by_cases hi : e = .opener ∧ i' = i
    · rw [hi.1, hi.2, hself] at hb
      exact hbound b hb
    · rw [hne e i' hi] at hb
      exact h.bounded e i' b hb
  · rw [hne .acceptor j fun h => End.noConfusion h.1] at ha
    exact h.named j a ha
  · by_cases hi : i' = i
    · rw [hi, hself] at ho
      exact hunused o ho hr
    · rw [hne .opener i' fun h => hi h.2] at ho
      exact h.unused i' o ho hr
  · rcases hup j n hn with hn | ⟨hflow, b, hb, hr⟩
    · obtain ⟨hflow, i', o, ho, hr⟩ := h.up j n hn
      by_cases hi : i' = i
      · subst hi
        obtain ⟨b, hb, hr⟩ := hkeep o j ho hr
        exact ⟨hflow, i', b, hself.trans hb, hr⟩
      · exact ⟨hflow, i', o, (hne .opener i' fun h => hi h.2).trans ho, hr⟩
    · exact ⟨hflow, i, b, hself.trans hb, hr⟩
  · by_cases hi : i' = i
    · subst hi
      exact hstage
    · exact (h.stage i').same (hothers i' hi)

/-- A step that writes lane `j` of the acceptor, the one for lane `i` of the opener. -/
theorem of_acceptor (h : Sound cap t) {l : Option (Lane I)}
    (hlanes : t'.lanes = (t.put .acceptor j l).lanes)
    (hbound : ∀ b, l = some b → b.recv ≤ b.limit ∧ b.limit ≤ cap)
    (hnamed : ∀ b, l = some b → b.remote ≠ none)
    (hup : ∀ j n, n ∈ t'.notes .acceptor j → n ∈ t.notes .acceptor j)
    (hone : ∀ p ∈ t'.mail .opener, p ∈ t.mail .opener ∨ ∀ id, p.askOf id = none)
    (hstage : Stage t' i) (hothers : ∀ i', i' ≠ i → Same i' t t') : Sound cap t' := by
  have hself : t'.lanes .acceptor j = l := by rw [hlanes, lanes_put_self]
  have hne : ∀ e j', ¬(e = .acceptor ∧ j' = j) → t'.lanes e j' = t.lanes e j' := by
    intro e j' hne
    rw [hlanes, lanes_put_ne t l hne]
  refine ⟨fun e j' b hb => ?_, fun j' a ha => ?_, fun i o ho hr => ?_,
    fun p hp => (hone p hp).elim (h.oneWay p) id, fun j n hn => ?_, fun i' => ?_⟩
  · by_cases hj : e = .acceptor ∧ j' = j
    · rw [hj.1, hj.2, hself] at hb
      exact hbound b hb
    · rw [hne e j' hj] at hb
      exact h.bounded e j' b hb
  · by_cases hj : j' = j
    · rw [hj, hself] at ha
      exact hnamed a ha
    · rw [hne .acceptor j' fun h => hj h.2] at ha
      exact h.named j' a ha
  · rw [hne .opener i fun h => End.noConfusion h.1] at ho
    exact h.unused i o ho hr
  · obtain ⟨hflow, i, o, ho, hr⟩ := h.up j n (hup j n hn)
    exact ⟨hflow, i, o, (hne .opener i fun h => End.noConfusion h.1).trans ho, hr⟩
  · by_cases hi : i' = i
    · subst hi
      exact hstage
    · exact (h.stage i').same (hothers i' hi)

omit [DecidableEq I] in
theorem other_remote (hr : a.remote = some i) (hne : i' ≠ i) (b : Lane I) (hb : some a = some b) :
    b.remote ≠ some i' := by
  cases hb
  rw [hr]
  exact fun h => hne (Option.some.inj h).symm

theorem noteFor_ne {q : Parcel I} (hq : q = .data j n ∨ q = .credit j n) {id : I} (h : id ≠ j) :
    q.noteFor id = none := by
  rcases hq with rfl | rfl <;> exact if_neg fun hj => h hj.symm

theorem noteFor_flow {q : Parcel I} (hq : q = .data j n ∨ q = .credit j n) {id : I} {m : Note I}
    (h : q.noteFor id = some m) : m.Flow ∧ id = j := by
  by_cases hid : id = j
  · subst hid
    refine ⟨?_, rfl⟩
    rcases hq with rfl | rfl <;> cases (if_pos rfl).symm.trans h <;> trivial
  · cases (noteFor_ne hq hid).symm.trans h

theorem ask (h : Sound cap t) (hfree : t.lanes .opener i = none) (hw : w ≤ cap)
    (hp : parcels = [.ask i w] ∨ parcels = []) :
    Sound cap ((t.put .opener i (some ⟨none, false, 0, w, w⟩)).post .acceptor parcels) := by
  have hnote : ∀ j, parcels.filterMap (Parcel.noteFor j) = [] := by
    intro j
    rcases hp with rfl | rfl <;> rfl
  apply h.of_opener (i := i)
  · rfl
  · intro b hb
    cases hb
    exact ⟨Nat.le_refl w, hw⟩
  · intro b hb _
    cases hb
    rfl
  · intro o r ho
    cases hfree.symm.trans ho
  · intro j n hn
    rw [notes_post_self, hnote j, List.append_nil] at hn
    exact .inl hn
  · exact fun p hp => hp
  · exact stage_ask (h.stage i) hfree hp
  · intro i' hne
    apply same_post_acceptor hne
    · rcases hp with rfl | rfl
      · exact List.filterMap_cons_none (if_neg fun h => hne h.symm)
      · rfl
    · intro j _ _ _
      exact hnote j

theorem accept (h : Sound cap t) (hm : t.mail .acceptor = .ask i w :: mail)
    (hfree : t.lanes .acceptor j = none) (hv : v ≤ cap) :
    Sound cap ((t.take .acceptor).put .acceptor j (some ⟨some i, false, w, v, v⟩)) := by
  apply h.of_acceptor (i := i)
  · rfl
  · intro b hb
    cases hb
    exact ⟨Nat.le_refl v, hv⟩
  · intro b hb
    cases hb
    exact Option.some_ne_none i
  · intro j' n hn
    rw [notes_take_self hm j']
    exact List.mem_append_right _ hn
  · exact fun p hp => .inl hp
  · exact stage_accept (h.stage i) hm
  · intro i' hne
    apply same_take_acceptor hm
    · intro b hb
      cases hfree.symm.trans hb
    · exact other_remote rfl hne
    · exact if_neg fun h => hne h.symm
    · intro _ _ _ _
      rfl

theorem confirm (h : Sound cap t) (ha : t.lanes .acceptor j = some a) (hr : a.remote = some i)
    (hc : a.confirmed = false) :
    Sound cap ((t.put .acceptor j (some { a with confirmed := true })).post .opener
      [.confirm i j a.limit]) := by
  apply h.of_acceptor (i := i)
  · rfl
  · intro b hb
    cases hb
    exact h.bounded .acceptor j a ha
  · intro b hb
    cases hb
    exact h.named j a ha
  · intro j' n hn
    rw [notes_post_ne _ _ _ (by decide)] at hn
    exact hn
  · intro p hp
    rcases List.mem_append.mp hp with hp | hp
    · exact .inl hp
    · rw [List.mem_singleton.mp hp]
      exact .inr fun _ => rfl
  · exact stage_confirm h ha hr hc
  · intro i' hne
    apply same_post_opener
    · rw [ha]
      exact other_remote hr hne
    · exact other_remote hr hne
    · exact List.filterMap_cons_none (if_neg fun h => hne h.symm)

theorem refuse (h : Sound cap t) (ha : t.lanes .acceptor j = some a) (hr : a.remote = some i)
    (hc : a.confirmed = false) (hp' : parcels = [.refuse i] ∨ parcels = []) :
    Sound cap ((t.put .acceptor j none).post .opener parcels) := by
  apply h.of_acceptor (i := i)
  · rfl
  · intro b hb
    cases hb
  · intro b hb
    cases hb
  · intro j' n hn
    rw [notes_post_ne _ _ _ (by decide)] at hn
    exact hn
  · intro p hp
    rcases List.mem_append.mp hp with hmem | hmem
    · exact .inl hmem
    · rcases hp' with rfl | rfl
      · rw [List.mem_singleton.mp hmem]
        exact .inr fun _ => rfl
      · cases hmem
  · exact stage_refuse h ha hr hc hp'
  · intro i' hne
    apply same_post_opener
    · rw [ha]
      exact other_remote hr hne
    · intro b hb
      cases hb
    · rcases hp' with rfl | rfl
      · exact List.filterMap_cons_none (if_neg fun h => hne h.symm)
      · rfl

theorem learn (h : Sound cap t) (hm : t.mail .opener = .confirm i j w :: mail)
    (ho : t.lanes .opener i = some o) :
    Sound cap ((t.take .opener).put .opener i
      (some { o with remote := some j, confirmed := true, send := w })) := by
  have hfirst : t.notes .opener i = .confirm j w :: (t.take .opener).notes .opener i := by
    rw [notes_take_self hm i, Parcel.noteFor, if_pos rfl]
    rfl
  obtain ⟨a, rest, hj, hnone⟩ : ∃ a rest, Joined t i j a o w rest ∧ o.remote = none := by
    cases h.stage i with
    | apart hacc hmail => cases hmail (.confirm j w) (by rw [hfirst]; exact List.mem_cons_self)
    | held hsole hc ho hr hmail => cases hmail.symm.trans hfirst
    | joined hj =>
      cases ho.symm.trans hj.lane
      rcases hj.known with ⟨hnone, hk⟩ | ⟨-, -, -, hk⟩
      · cases hk.symm.trans hfirst
        exact ⟨_, _, hj, hnone⟩
      · exact (hj.flow (.confirm j w) (by rw [← hk, hfirst]; exact List.mem_cons_self)).elim
  apply h.of_opener (i := i)
  · rfl
  · intro b hb
    cases hb
    exact h.bounded .opener i o ho
  · intro b hb hr
    cases hb
    cases hr
  · intro o' r ho' hr
    cases ho.symm.trans ho'
    cases hnone.symm.trans hr
  · intro j' n hn
    rw [notes_put, notes_take_ne t j' (by decide)] at hn
    exact .inl hn
  · exact fun p hp => List.mem_of_mem_tail hp
  · exact stage_learn hj hm
  · intro i' hne
    exact same_take_opener hm hne (if_neg fun h => hne h.symm)

theorem giveUp (h : Sound cap t) (hm : t.mail .opener = .refuse i :: mail) :
    Sound cap ((t.take .opener).put .opener i none) := by
  obtain ⟨hstage, hnone⟩ := stage_giveUp (h.stage i) hm
  apply h.of_opener (i := i)
  · rfl
  · intro b hb
    cases hb
  · intro b hb
    cases hb
  · intro o r ho hr
    cases (hnone o ho).symm.trans hr
  · intro j n hn
    rw [notes_put, notes_take_ne t j (by decide)] at hn
    exact .inl hn
  · exact fun p hp => List.mem_of_mem_tail hp
  · exact hstage
  · intro i' hne
    exact same_take_opener hm hne (if_neg fun h => hne h.symm)

/-- The opener posts data or credit for a lane in use. -/
theorem post_acceptor (h : Sound cap t) (hj : Joined t i j a o x rest) (hr : o.remote = some j)
    {b : Lane I} {q : Parcel I} (hq : q = .data j n ∨ q = .credit j n) (hbr : b.remote = some j)
    (hbound : b.recv ≤ b.limit ∧ b.limit ≤ cap)
    (hnew : Joined ((t.put .opener i (some b)).post .acceptor [q]) i j a b b.send rest) :
    Sound cap ((t.put .opener i (some b)).post .acceptor [q]) := by
  apply h.of_opener (i := i)
  · rfl
  · intro c hc
    cases hc
    exact hbound
  · intro c hc hnone
    cases hc
    cases hbr.symm.trans hnone
  · intro o' r ho hr'
    cases hj.lane.symm.trans ho
    cases hr.symm.trans hr'
    exact ⟨b, rfl, hbr⟩
  · intro j' m hm
    rw [notes_post_self, notes_put] at hm
    rcases List.mem_append.mp hm with hm | hm
    · exact .inl hm
    · obtain ⟨q', hq', hm⟩ := List.mem_filterMap.mp hm
      cases List.mem_singleton.mp hq'
      obtain ⟨hflow, rfl⟩ := noteFor_flow hq hm
      exact .inr ⟨hflow, b, rfl, hbr⟩
  · exact fun p hp => hp
  · exact .joined hnew
  · intro i' hne
    apply same_post_acceptor hne
    · rcases hq with rfl | rfl <;> rfl
    · intro j' a' ha' hr'
      apply List.filterMap_cons_none
      apply noteFor_ne hq
      rintro rfl
      cases hj.sole.lane.symm.trans ha'
      cases hj.sole.remote.symm.trans hr'
      exact hne rfl

/-- The same for the acceptor. -/
theorem post_opener (h : Sound cap t) (hj : Joined t i j a o x rest) {b : Lane I} {q : Parcel I}
    (hq : q = .data i n ∨ q = .credit i n) (hbr : b.remote = some i)
    (hbound : b.recv ≤ b.limit ∧ b.limit ≤ cap)
    (hnew : Stage ((t.put .acceptor j (some b)).post .opener [q]) i) :
    Sound cap ((t.put .acceptor j (some b)).post .opener [q]) := by
  apply h.of_acceptor (i := i)
  · rfl
  · intro c hc
    cases hc
    exact hbound
  · intro c hc
    cases hc
    rw [hbr]
    exact Option.some_ne_none i
  · intro j' m hm
    rw [notes_post_ne _ _ _ (by decide)] at hm
    exact hm
  · intro p hp
    rcases List.mem_append.mp hp with hp | hp
    · exact .inl hp
    · rw [List.mem_singleton.mp hp]
      right
      intro _
      rcases hq with rfl | rfl <;> rfl
  · exact hnew
  · intro i' hne
    apply same_post_opener
    · rw [hj.sole.lane]
      exact other_remote hj.sole.remote hne
    · exact other_remote hbr hne
    · exact List.filterMap_cons_none (noteFor_ne hq hne)

/-- Data or credit for a lane in use arrives at the opener. -/
theorem take_opener (h : Sound cap t) (hj : Joined t i j a o x rest) (hr : o.remote = some j)
    {b : Lane I} {q : Parcel I} (hq : q = .data i n ∨ q = .credit i n)
    (hm : t.mail .opener = q :: mail) (hbr : b.remote = some j)
    (hbound : b.recv ≤ b.limit ∧ b.limit ≤ cap)
    (hnew : Stage ((t.take .opener).put .opener i (some b)) i) :
    Sound cap ((t.take .opener).put .opener i (some b)) := by
  apply h.of_opener (i := i)
  · rfl
  · intro c hc
    cases hc
    exact hbound
  · intro c hc hnone
    cases hc
    cases hbr.symm.trans hnone
  · intro o' r ho hr'
    cases hj.lane.symm.trans ho
    cases hr.symm.trans hr'
    exact ⟨b, rfl, hbr⟩
  · intro j' m hm'
    rw [notes_put, notes_take_ne t j' (by decide)] at hm'
    exact .inl hm'
  · exact fun p hp => List.mem_of_mem_tail hp
  · exact hnew
  · intro i' hne
    exact same_take_opener hm hne (noteFor_ne hq hne)

/-- The same for the acceptor. -/
theorem take_acceptor (h : Sound cap t) (hj : Joined t i j a o x rest) {b : Lane I} {q : Parcel I}
    (hq : q = .data j n ∨ q = .credit j n) (hm : t.mail .acceptor = q :: mail)
    (hbr : b.remote = some i) (hbound : b.recv ≤ b.limit ∧ b.limit ≤ cap)
    (hnew : Stage ((t.take .acceptor).put .acceptor j (some b)) i) :
    Sound cap ((t.take .acceptor).put .acceptor j (some b)) := by
  apply h.of_acceptor (i := i)
  · rfl
  · intro c hc
    cases hc
    exact hbound
  · intro c hc
    cases hc
    rw [hbr]
    exact Option.some_ne_none i
  · intro j' m hm'
    rw [notes_take_self hm j']
    exact List.mem_append_right _ hm'
  · exact fun p hp => .inl hp
  · exact hnew
  · intro i' hne
    apply same_take_acceptor hm
    · rw [hj.sole.lane]
      exact other_remote hj.sole.remote hne
    · exact other_remote hbr hne
    · rcases hq with rfl | rfl <;> rfl
    · intro j' a' ha' hr'
      apply noteFor_ne hq
      rintro rfl
      cases hj.sole.lane.symm.trans ha'
      cases hj.sole.remote.symm.trans hr'
      exact hne rfl

theorem send (h : Sound cap t) {id r : I} (hl : t.lanes e id = some l) (hr : l.remote = some r)
    (hc : l.confirmed = true) (hn : n ≤ l.send) :
    Sound cap ((t.put e id (some { l with send := l.send - n })).post e.other [.data r n]) := by
  have hbound := h.bounded e id l hl
  cases e with
  | opener =>
    obtain ⟨a, hj, -⟩ := h.of_known hl hr
    have hdown := hj.down
    have hup := hj.up
    apply h.post_acceptor (b := { l with send := l.send - n }) hj hr (.inl rfl) hr hbound
    apply hj.post_acceptor (b := { l with send := l.send - n }) hr hr hc (Parcel.noteFor_data _ _) rfl
    · rw [creditIn_data]
      exact hdown
    · rw [dataIn_data]
      show a.recv = l.send - n + (_ + (n + 0)) + _
      omega
  | acceptor =>
    obtain ⟨o, x, rest, hj⟩ := h.of_confirmed hl hr hc
    have hdown := hj.down
    have hup := hj.up
    apply h.post_opener (b := { l with send := l.send - n }) hj (.inl rfl) hr hbound
    apply Stage.joined
    apply hj.post_opener (b := { l with send := l.send - n }) hr hc (Parcel.noteFor_data _ _) trivial
    · rw [dataIn_data]
      show o.recv = l.send - n + (_ + (n + 0)) + _
      omega
    · rw [creditIn_data]
      exact hup

theorem grant (h : Sound cap t) {id r : I} (hl : t.lanes e id = some l) (hr : l.remote = some r)
    (hpos : 0 < n) (hn : l.recv + n ≤ l.limit) :
    Sound cap ((t.put e id (some { l with recv := l.recv + n })).post e.other [.credit r n]) := by
  have hbound := h.bounded e id l hl
  cases e with
  | opener =>
    obtain ⟨a, hj, hc⟩ := h.of_known hl hr
    have hdown := hj.down
    have hup := hj.up
    apply h.post_acceptor (b := { l with recv := l.recv + n }) hj hr (.inr rfl) hr ⟨hn, hbound.2⟩
    apply hj.post_acceptor (b := { l with recv := l.recv + n }) hr hr hc (Parcel.noteFor_credit _ _) rfl
    · rw [creditIn_credit]
      show l.recv + n = a.send + _ + (_ + (n + 0))
      omega
    · rw [dataIn_credit]
      exact hup
  | acceptor =>
    have hc : l.confirmed = true := by
      by_contra hc
      -- before the decision the window is still full
      obtain ⟨-, o, -, -, -, -, hfull, -⟩ := h.of_undecided hl hr (Bool.eq_false_of_not_eq_true hc)
      omega
    obtain ⟨o, x, rest, hj⟩ := h.of_confirmed hl hr hc
    have hdown := hj.down
    have hup := hj.up
    apply h.post_opener (b := { l with recv := l.recv + n }) hj (.inr rfl) hr ⟨hn, hbound.2⟩
    apply Stage.joined
    apply hj.post_opener (b := { l with recv := l.recv + n }) hr hc (Parcel.noteFor_credit _ _) trivial
    · rw [dataIn_credit]
      exact hdown
    · rw [creditIn_credit]
      show l.recv + n = x + _ + (_ + (n + 0))
      omega

theorem arrive (h : Sound cap t) {id : I} (hm : t.mail e = .data id n :: mail)
    (hl : t.lanes e id = some l) :
    Sound cap ((t.take e).put e id (some { l with recv := l.recv - n })) := by
  have hbound := h.bounded e id l hl
  have hfirst : t.notes e id = .data n :: (t.take e).notes e id := by
    rw [notes_take_self hm id, Parcel.noteFor, if_pos rfl]
    rfl
  cases e with
  | opener =>
    obtain ⟨j, a, o, hj, hr, hc⟩ := h.of_down hfirst trivial
    cases hl.symm.trans hj.lane
    have hdown := hj.down
    have hup := hj.up
    rw [dataIn_data] at hdown
    rw [creditIn_data] at hup
    apply h.take_opener (b := { l with recv := l.recv - n }) hj hr (.inl rfl) hm hr
      ⟨by show l.recv - n ≤ l.limit; omega, hbound.2⟩
    apply Stage.joined
    apply hj.take_opener (b := { l with recv := l.recv - n }) hr hr hc hm (Parcel.noteFor_data _ _)
    · show l.recv - n = _
      omega
    · exact hup
  | acceptor =>
    obtain ⟨i, a, o, hj, hr, hc⟩ := h.of_up (by rw [hfirst]; exact List.mem_cons_self)
    cases hl.symm.trans hj.sole.lane
    have hdown := hj.down
    have hup := hj.up
    rw [hfirst, creditIn_data] at hdown
    rw [hfirst, dataIn_data] at hup
    have hremote := hj.sole.remote
    apply h.take_acceptor (b := { l with recv := l.recv - n }) hj (.inl rfl) hm hremote
      ⟨by show l.recv - n ≤ l.limit; omega, hbound.2⟩
    apply Stage.joined
    apply hj.take_acceptor (b := { l with recv := l.recv - n }) hremote hj.confirmed hm rfl rfl hdown
    show l.recv - n = _
    omega

theorem gain (h : Sound cap t) {id : I} (hm : t.mail e = .credit id n :: mail)
    (hl : t.lanes e id = some l) :
    Sound cap ((t.take e).put e id (some { l with send := min (l.send + n) cap })) := by
  have hbound := h.bounded e id l hl
  have hfirst : t.notes e id = .credit n :: (t.take e).notes e id := by
    rw [notes_take_self hm id, Parcel.noteFor, if_pos rfl]
    rfl
  cases e with
  | opener =>
    obtain ⟨j, a, o, hj, hr, hc⟩ := h.of_down hfirst trivial
    cases hl.symm.trans hj.lane
    have hdown := hj.down
    have hup := hj.up
    rw [dataIn_credit] at hdown
    rw [creditIn_credit] at hup
    -- the other end has room for all of it
    have hroom := h.bounded .acceptor j a hj.sole.lane
    have hmin : min (l.send + n) cap = l.send + n := by omega
    apply h.take_opener (b := { l with send := min (l.send + n) cap }) hj hr (.inr rfl) hm hr hbound
    apply Stage.joined
    apply hj.take_opener (b := { l with send := min (l.send + n) cap }) hr hr hc hm
      (Parcel.noteFor_credit _ _)
    · exact hdown
    · show a.recv = min (l.send + n) cap + _ + _
      omega
  | acceptor =>
    obtain ⟨i, a, o, hj, hr, hc⟩ := h.of_up (by rw [hfirst]; exact List.mem_cons_self)
    cases hl.symm.trans hj.sole.lane
    have hdown := hj.down
    have hup := hj.up
    rw [hfirst, creditIn_credit] at hdown
    rw [hfirst, dataIn_credit] at hup
    have hremote := hj.sole.remote
    have hroom := h.bounded .opener i o hj.lane
    apply h.take_acceptor (b := { l with send := min (l.send + n) cap }) hj (.inr rfl) hm hremote hbound
    apply Stage.joined
    apply hj.take_acceptor (b := { l with send := min (l.send + n) cap }) hremote hj.confirmed hm
      rfl rfl
    · show o.recv = min (l.send + n) cap + _ + _
      omega
    · exact hup

end Kept

/-- The windows and what is on the way between them, on a lane in use. -/
theorem conserved (h : Sound cap t) (ha : t.lanes .acceptor j = some a)
    (hc : a.confirmed = true) : ∃ i o, a.remote = some i ∧ t.lanes .opener i = some o ∧
      o.recv = a.send + dataIn (t.notes .opener i) + creditIn (t.notes .acceptor j) ∧
      a.recv = (windowIn (t.notes .opener i)).getD o.send + dataIn (t.notes .acceptor j)
        + creditIn (t.notes .opener i) := by
  obtain ⟨i, hr⟩ := Option.ne_none_iff_exists'.mp (h.named j a ha)
  obtain ⟨o, x, rest, hj⟩ := h.of_confirmed ha hr hc
  have hdown := hj.down
  have hup := hj.up
  refine ⟨i, o, hr, hj.lane, ?_⟩
  rcases hj.known with ⟨-, hk⟩ | ⟨-, -, hx, hk⟩
  · rw [hk, dataIn_confirm, creditIn_confirm, windowIn_confirm]
    exact ⟨hdown, hup⟩
  · rw [hk, windowIn_flow hj.flow, hx]
    exact ⟨hdown, hup⟩

/-- What is on the way finds its lane. -/
theorem live (h : Sound cap t) {e : End} {id : I} {n : Note I} (hn : n ∈ t.notes e id) :
    ∃ l, t.lanes e id = some l := by
  cases e with
  | acceptor =>
    obtain ⟨i, a, o, hj, -, -⟩ := h.of_up hn
    exact ⟨a, hj.sole.lane⟩
  | opener =>
    cases h.stage id with
    | apart hacc hmail hcount hlane =>
      have hpos := List.length_pos_of_mem hn
      apply Option.isSome_iff_exists.mp
      by_contra hnone
      rw [if_neg hnone] at hcount
      omega
    | held hsole hc ho hr hmail =>
      rw [hmail] at hn
      cases hn
    | joined hj => exact ⟨_, hj.lane⟩

/-- All the data on the way to a lane fits into its window. -/
theorem fits (h : Sound cap t) {e : End} {id : I} {l : Lane I} (hl : t.lanes e id = some l) :
    dataIn (t.notes e id) ≤ l.recv := by
  cases e with
  | acceptor =>
    cases hc : l.confirmed with
    | false =>
      rw [h.up_eq_nil hl hc]
      exact Nat.zero_le _
    | true =>
      obtain ⟨i, o, -, -, -, hup⟩ := h.conserved hl hc
      omega
  | opener =>
    cases h.stage id with
    | apart hacc hmail =>
      rw [dataIn_refuse hmail]
      exact Nat.zero_le _
    | held hsole hc ho hr hmail =>
      rw [hmail]
      exact Nat.zero_le _
    | joined hj =>
      cases hl.symm.trans hj.lane
      have hdown := hj.down
      rcases hj.known with ⟨-, hk⟩ | ⟨-, -, -, hk⟩
      · rw [hk, dataIn_confirm]
        omega
      · rw [hk]
        omega

/-- No credit on the way to a lane in use is lost to the cap. -/
theorem uncapped (h : Sound cap t) {e : End} {id r : I} {l : Lane I}
    (hl : t.lanes e id = some l) (hr : l.remote = some r) (hc : l.confirmed = true) :
    l.send + creditIn (t.notes e id) ≤ cap := by
  cases e with
  | acceptor =>
    obtain ⟨i, o, -, ho, hdown, -⟩ := h.conserved hl hc
    have hroom := h.bounded .opener i o ho
    omega
  | opener =>
    obtain ⟨a, hj, -⟩ := h.of_known hl hr
    have hup := hj.up
    have hroom := h.bounded .acceptor r a hj.sole.lane
    omega

/-- The data that comes next fits. -/
theorem spare (h : Sound cap t) {e : End} {id : I} {l : Lane I} {n : Nat} {mail : List (Parcel I)}
    (hm : t.mail e = .data id n :: mail) (hl : t.lanes e id = some l) : n ≤ l.recv := by
  have hfits := h.fits hl
  rw [notes_take_self hm id, Parcel.noteFor_data, Option.toList_some, List.singleton_append,
    dataIn_data] at hfits
  omega

/-- The credit that comes next is not lost to the cap. -/
theorem room (h : Sound cap t) {e : End} {id : I} {l : Lane I} {n : Nat} {mail : List (Parcel I)}
    (hm : t.mail e = .credit id n :: mail) (hl : t.lanes e id = some l) : l.send + n ≤ cap := by
  have hfirst : t.notes e id = .credit n :: (t.take e).notes e id := by
    rw [notes_take_self hm id, Parcel.noteFor_credit]
    rfl
  have hused : ∃ r, l.remote = some r ∧ l.confirmed = true := by
    cases e with
    | opener =>
      obtain ⟨j, a, o, hj, hr, hc⟩ := h.of_down hfirst trivial
      cases hl.symm.trans hj.lane
      exact ⟨j, hr, hc⟩
    | acceptor =>
      obtain ⟨i, a, o, hj, -, -⟩ := h.of_up (by rw [hfirst]; exact List.mem_cons_self)
      cases hl.symm.trans hj.sole.lane
      exact ⟨i, hj.sole.remote, hj.confirmed⟩
  obtain ⟨r, hr, hc⟩ := hused
  have hcapped := h.uncapped hl hr hc
  rw [hfirst, creditIn_credit] at hcapped
  omega

-- What an end may rely on before a stroke.

/-- The opener may use a lane as soon as it knows the other end of it. -/
theorem confirmed_of_known (h : Sound cap t) (ho : t.lanes .opener i = some o)
    (hr : o.remote = some j) : o.confirmed = true := by
  obtain ⟨a, hj, hc⟩ := h.of_known ho hr
  exact hc

/-- Nothing was received on a lane without another end. -/
theorem full (h : Sound cap t) {e : End} {id : I} {l : Lane I} (hl : t.lanes e id = some l)
    (hr : l.remote = none) : l.recv = l.limit := by
  cases e with
  | acceptor => exact absurd hr (h.named id l hl)
  | opener => exact h.unused id l hl hr

theorem addressed (h : Sound cap t) {e : End} {p : Parcel I} (hp : p ∈ t.mail e) : p.For e := by
  have hnote : ∀ {j : I} {n : Note I}, e = .acceptor → p.noteFor j = some n → n.Flow := by
    rintro j n rfl hn
    exact (h.up j n (List.mem_filterMap.mpr ⟨p, hp, hn⟩)).1
  cases e with
  | opener =>
    cases p with
    | ask i w =>
      have hnone := h.oneWay _ hp i
      rw [Parcel.askOf, if_pos rfl] at hnone
      cases hnone
    | _ => trivial
  | acceptor =>
    cases p with
    | confirm i j w => exact hnote rfl (if_pos rfl)
    | refuse i => exact hnote rfl (if_pos rfl)
    | _ => trivial

end Sound

omit [DecidableEq I] in
theorem post_nil (t : Trunk I) (e : End) : t.post e [] = t := by
  have hmail : (t.post e []).mail = t.mail := by
    funext e'
    show (if e' = e then t.mail e' ++ [] else t.mail e') = t.mail e'
    rw [List.append_nil, ite_self]
  exact congrArg (Trunk.mk t.lanes) hmail

theorem Step.sound (hs : Step cap t t') (h : Sound cap t) : Sound cap t' := by
  cases hs with
  | @mk e taken id new parcels rest hm hs =>
    generalize hold : t.lanes e id = old at hs
    cases hs with
    | ask hw hp => exact h.ask hold hw hp
    | accept hv =>
      rw [post_nil]
      exact h.accept hm hold hv
    | confirm hr hc => exact h.confirm hold hr hc
    | refuse hr hc hp => exact h.refuse hold hr hc hp
    | learn =>
      rw [post_nil]
      exact h.learn hm hold
    | giveUp =>
      rw [post_nil]
      exact h.giveUp hm
    | send hr hc hn => exact h.send hold hr hc hn
    | grant hr hpos hn => exact h.grant hold hr hpos hn
    | arrive hn =>
      rw [post_nil]
      exact h.arrive hm hold
    | gain =>
      rw [post_nil]
      exact h.gain hm hold

/-- The trunk before anything happens. -/
def empty : Trunk I := ⟨fun _ _ => none, fun _ => []⟩

theorem sound_empty (cap : Nat) : Sound cap (empty : Trunk I) where
  bounded _ _ _ hl := by cases hl
  named _ _ ha := by cases ha
  unused _ _ ho := by cases ho
  oneWay _ hp := by cases hp
  up _ _ hn := by cases hn
  stage i := by
    apply Stage.apart
    · intro j a ha
      cases ha
    · intro n hn
      cases hn
    · exact Nat.zero_le _
    · intro o ho
      cases ho

/-- The invariant holds in every run. -/
theorem steps_sound (hs : Relation.ReflTransGen (Step cap) t t') (h : Sound cap t) :
    Sound cap t' := by
  induction hs with
  | refl => exact h
  | tail _ hlast ih => exact hlast.sound ih

end Trunk

end Ssproxy.Lib
