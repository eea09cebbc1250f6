/-
  Ssproxy.Spin

  When the loop of `Session::poll` goes round again, has anything changed?  Each
  part of an iteration that reports progress did something, except the read
  from the SSH socket: at its end it reports progress for ever.
-/

import Ssproxy.Session
import Ssproxy.Inflow
import Ssproxy.Isolation
import Ssproxy.Laws

namespace Ssproxy

open Lib

open Traced (read update observe)

-- ============================================================================
-- Deeds
-- ============================================================================

/-- What counts as a change: bytes that moved, the connection turned closed, a
    connect resolved, a channel or a target's entry that is another one now. -/
def Deed.Real : Deed → Prop
  | called before after => before.channels ≠ after.channels ∨
      (before.closed = false ∧ after.closed = true)
  | entry _ before after => before ≠ after
  | moved n => 0 < n
  | resolved _ => True

/-- Something changed between `s` and `s'`. -/
def Did (s s' : Host) : Prop := ∃ new, s'.log = s.log ++ new ∧ ∃ o ∈ new, o.Real

/-- Neither the channels nor the targets' entries nor the closed flag differ. -/
structure Alike (s s' : Session) : Prop where
  channels : s'.conn.now.channels = s.conn.now.channels
  closed : s'.conn.now.closed = s.conn.now.closed
  dests : ∀ id, s'.dests.get? id = s.dests.get? id

namespace Alike

variable {a b c : Session}

theorem refl (a : Session) : Alike a a := ⟨rfl, rfl, fun _ => rfl⟩

theorem symm (h : Alike a b) : Alike b a :=
  ⟨h.channels.symm, h.closed.symm, fun id => (h.dests id).symm⟩

theorem trans (h : Alike a b) (h' : Alike b c) : Alike a c :=
  ⟨h'.channels.trans h.channels, h'.closed.trans h.closed,
    fun id => (h'.dests id).trans (h.dests id)⟩

end Alike

variable [CryptoLib]

/-- What happened between `s` and `s'`: the connection made moves, and the
    history tells of any change. -/
structure Told (s s' : Host) : Prop where
  moves : Moves s.now.session.conn s'.now.session.conn
  history : ∃ new, s'.log = s.log ++ new ∧
    ((∀ o ∈ new, ¬o.Real) → Alike s.now.session s'.now.session)

namespace Told

variable {s s1 s' : Host}

theorem refl (s : Host) : Told s s :=
  ⟨.refl, [], (List.append_nil _).symm, fun _ => .refl _⟩

theorem trans (h : Told s s1) (h' : Told s1 s') : Told s s' := by
  obtain ⟨new, hlog, hsame⟩ := h.history
  obtain ⟨new', hlog', hsame'⟩ := h'.history
  refine ⟨h.moves.trans h'.moves, new ++ new', ?_, fun hnone => ?_⟩
  · rw [hlog', hlog, List.append_assoc]
  · exact (hsame fun o ho => hnone o (List.mem_append_left _ ho)).trans
      (hsame' fun o ho => hnone o (List.mem_append_right _ ho))

theorem wellFormed (h : Told s s') (hwf : WellFormed s.now.session.conn) :
    WellFormed s'.now.session.conn := Moves.wellFormed h.moves hwf

theorem log (h : Told s s') : s.log <+: s'.log := by
  obtain ⟨new, hlog, -⟩ := h.history
  exact ⟨new, hlog.symm⟩

/-- Without a deed that counts, nothing changed. -/
theorem same (h : Told s s') (hdid : ¬Did s s') : Alike s.now.session s'.now.session := by
  obtain ⟨new, hlog, hsame⟩ := h.history
  exact hsame fun o ho hreal => hdid ⟨new, hlog, o, ho, hreal⟩

end Told

/-- The deed `o` was recorded on the way. -/
theorem Did.of_observed {s s' s1 s2 : Host} {o : Deed} (h1 : Told s s1)
    (hlog : (observe o : SessionM Unit) s1 = .ok () s2) (ho : o.Real) (h2 : Told s2 s') :
    Did s s' := by
  cases hlog
  obtain ⟨pre, hpre⟩ := h1.log
  obtain ⟨post, hpost⟩ := h2.log
  refine ⟨pre ++ [o] ++ post, ?_, o, by simp, ho⟩
  rw [← hpost, ← hpre]
  simp

theorem Did.mono {s s0 s1 s' : Host} (h : Did s0 s1) (hpre : Told s s0) (hpost : Told s1 s') :
    Did s s' := by
  obtain ⟨new, hnew, o, ho, hreal⟩ := h
  obtain ⟨pre, hpre⟩ := hpre.log
  obtain ⟨post, hpost⟩ := hpost.log
  refine ⟨pre ++ new ++ post, ?_, o, by simp [ho], hreal⟩
  rw [← hpost, hnew, ← hpre]
  simp

/-- A normal return of `m` is told. -/
def Tells {α : Type} (m : SessionM α) : Prop :=
  ∀ s a s', WellFormed s.now.session.conn → m s = .ok a s' → Told s s'

section

variable {α β : Type} {m : SessionM α}

theorem tells_pure (a : α) : Tells (pure a : SessionM α) := by
  intro s b s' _ h
  cases h
  exact .refl s

theorem tells_read : Tells (read : SessionM Site) := by
  intro s b s' _ h
  cases h
  exact .refl s

theorem tells_observe (o : Deed) : Tells (observe o) := by
  intro s b s' _ h
  cases h
  exact ⟨.refl, [o], rfl, fun _ => .refl _⟩

theorem tells_throw (e : SessionError) : Tells (Proc.throw e : SessionM α) := by
  intro s b s' _ h
  cases h

theorem Tells.bind {g : α → SessionM β} (hm : Tells m) (hg : ∀ a, Tells (g a)) :
    Tells (m >>= g) := by
  intro s b s' hwf h
  obtain ⟨a, s1, h1, h2⟩ := Outcome.of_bind_eq_ok h
  have ht := hm s a s1 hwf h1
  exact ht.trans (hg a s1 b s' (ht.wellFormed hwf) h2)

theorem tells_ite {c : Prop} [Decidable c] {m' : SessionM α} (hm : Tells m) (hm' : Tells m') :
    Tells (if c then m else m') := by
  split
  · exact hm
  · exact hm'

theorem Tells.forEach {g : α → SessionM Unit} (hg : ∀ a, Tells (g a)) :
    ∀ xs : List α, Tells (Proc.forEach g xs)
  | [] => tells_pure ()
  | x :: xs => (hg x).bind fun _ => Tells.forEach hg xs

/-- A question to the environment. -/
theorem tells_ask (f : World → World) (g : Site → α) :
    Tells (do let s ← read; update fun s => { s with world := f s.world }; return g s :
      SessionM α) := by
  intro s b s' _ h
  cases h
  exact ⟨.refl, [], (List.append_nil _).symm, fun _ => ⟨rfl, rfl, fun _ => rfl⟩⟩

theorem tells_putDests (id : UInt32) (f : Dests → Dests)
    (hf : ∀ ds j, j ≠ id → (f ds).get? j = ds.get? j) : Tells (Session.putDests id f) := by
  intro s b s' _ h
  cases h
  refine ⟨.refl, [_], rfl, fun hnone => ⟨rfl, rfl, fun j => ?_⟩⟩
  by_cases hj : j = id
  · subst hj
    exact (Classical.not_not.mp (hnone _ (List.mem_singleton_self _))).symm
  · exact hf _ j hj

omit [CryptoLib] in
/-- A call on the connection that returned. -/
theorem onConn_ok {m : ConnM α} {s s' : Host} {a : α} (h : Session.onConn m s = .ok a s') :
    ∃ c, m s.now.session.conn = .ok a c ∧
      s' = ⟨{ s.now with session := { s.now.session with conn := c } },
        s.log ++ [.called s.now.session.conn.now c.now]⟩ := by
  unfold Session.onConn at h
  dsimp only at h
  cases hm : m s.now.session.conn with
  | ok b c =>
    rw [hm] at h
    cases h
    exact ⟨c, rfl, rfl⟩
  | err e c =>
    rw [hm] at h
    cases h
  | panic =>
    rw [hm] at h
    cases h

omit [CryptoLib] in
theorem onConn_apply {m : ConnM α} {s : Host} {a : α} {c : Conn}
    (h : m s.now.session.conn = .ok a c) : Session.onConn m s
      = .ok a ⟨{ s.now with session := { s.now.session with conn := c } },
        s.log ++ [.called s.now.session.conn.now c.now]⟩ := by
  unfold Session.onConn
  dsimp only
  rw [h]

theorem tells_onConn {m : ConnM α} (hm : ∀ c, WellFormed c → Proc.Follows Moves m c) :
    Tells (Session.onConn m) := by
  intro s a s' hwf h
  obtain ⟨c, hc, rfl⟩ := onConn_ok h
  have hmoves : Moves s.now.session.conn c := (Outcome.Sat.of_ok (hm _ hwf) hc :)
  refine ⟨hmoves, [_], rfl, fun hnone => ?_⟩
  have hquiet := hnone _ (List.mem_singleton_self _)
  simp only [Deed.Real, ne_eq, not_or, Classical.not_not, not_and, Bool.not_eq_true] at hquiet
  refine ⟨hquiet.1.symm, ?_, fun _ => rfl⟩
  cases hcl : s.now.session.conn.now.closed with
  | false => exact hquiet.2 hcl
  | true => exact (Moves.rises hmoves).closed hcl

theorem tells_call (call : Call) : Tells (Session.onConn call.run) :=
  tells_onConn fun c hwf => call.run_follows c hwf

end

theorem HangsUp.closed {c c' : Conn} {reason : UInt32} {msg : String} (h : HangsUp reason msg c c') :
    c'.now.closed = true := by
  cases h with
  | again hc => exact hc
  | first hc hs => rfl

namespace Session

-- ============================================================================
-- The history tells of every change
-- ============================================================================

omit [CryptoLib] in
theorem get?_cons (k : UInt32) (d : Dest) (ds : Dests) (j : UInt32) :
    Dests.get? ((k, d) :: ds) j = if j = k then some d else ds.get? j := by
  unfold Dests.get?
  rw [List.lookup_cons]
  by_cases hj : j = k
  · rw [beq_iff_eq.mpr hj, if_pos hj]
  · rw [beq_eq_false_iff_ne.mpr hj, if_neg hj]

omit [CryptoLib] in
theorem get?_remove (ds : Dests) (id j : UInt32) :
    (ds.remove id).get? j = if j = id then none else ds.get? j := by
  unfold Dests.remove
  induction ds with
  | nil => exact (ite_self _).symm
  | cons p ds ih =>
    obtain ⟨k, d⟩ := p
    by_cases hk : k = id
    · rw [List.filter_cons_of_neg (by simp [hk]), ih, get?_cons, hk]
      split <;> rfl
    · rw [List.filter_cons_of_pos (by simp [hk]), get?_cons, get?_cons, ih]
      by_cases hj : j = k
      · rw [if_pos hj, if_pos hj, if_neg (hj ▸ hk)]
      · rw [if_neg hj, if_neg hj]

omit [CryptoLib] in
theorem get?_insert_of_ne (ds : Dests) {id j : UInt32} (d : Dest) (hj : j ≠ id) :
    (ds.insert id d).get? j = ds.get? j := by
  have h := get?_remove ds id j
  rw [if_neg hj] at h
  rw [← h]
  unfold Dests.insert Dests.get?
  rw [List.lookup_append, List.lookup_cons, beq_eq_false_iff_ne.mpr hj]
  exact Option.or_none

omit [CryptoLib] in
theorem get?_set (ds : Dests) (id j : UInt32) (d : Dest) :
    (ds.set id d).get? j = if j = id then (ds.get? id).map (fun _ => d) else ds.get? j := by
  unfold Dests.set
  induction ds with
  | nil => exact (ite_self _).symm
  | cons p ds ih =>
    obtain ⟨k, e⟩ := p
    rw [List.map_cons]
    by_cases hk : k = id
    · rw [if_pos hk, get?_cons, ih, get?_cons, get?_cons, if_pos hk.symm, hk]
      split <;> rfl
    · rw [if_neg hk, get?_cons, ih, get?_cons, get?_cons, if_neg (Ne.symm hk)]
      by_cases hj : j = k
      · rw [if_pos hj, if_pos hj, if_neg (hj ▸ hk)]
      · rw [if_neg hj, if_neg hj]

theorem tells_removeDest (id : UInt32) : Tells (removeDest id) :=
  tells_putDests id _ fun ds j hj => (get?_remove ds id j).trans (if_neg hj)

theorem tells_insertDest (id : UInt32) (d : Dest) : Tells (insertDest id d) :=
  tells_putDests id _ fun ds _ hj => get?_insert_of_ne ds d hj

theorem tells_setDest (id : UInt32) (d : Dest) : Tells (setDest id d) :=
  tells_putDests id _ fun ds j hj => (get?_set ds id j d).trans (if_neg hj)

theorem tells_peekOut : Tells (onConn Connection.peekOut) :=
  tells_onConn fun c _ => (Connection.peekOut_follows c).mono
    (fun _ _ h => calms_moves (Trail.calms (Steps.trail h)))
    fun _ _ h => calms_moves (Trail.calms (Steps.trail h))

theorem tells_popEvent : Tells (onConn Connection.popEvent) :=
  tells_onConn fun c _ => Relation.ReflTransGen.single (Move.own (Step.popEvent c))

theorem tells_roundRobinIds : Tells (onConn Connection.roundRobinIds) :=
  tells_onConn fun c _ => (Connection.roundRobinIds_follows c).mono
    (fun _ _ h => calms_moves (Trail.calms h.trail)) fun _ _ h => calms_moves (Trail.calms h.trail)

theorem tells_ignore (call : Call) : Tells (onConn (Proc.ignore call.run)) :=
  tells_onConn fun c hwf => (call.run_follows c hwf).ignore.follows

theorem tells_sendData (id : UInt32) (data : Bytes) :
    Tells (onConn (Connection.sendDataCounted id data)) := by
  refine tells_onConn fun c _ => ?_
  have h := Connection.sendDataNoted_follows id data c
  unfold Proc.Follows Connection.sendDataNoted at h
  unfold Proc.Follows Connection.sendDataCounted
  rw [Proc.bind_of_ok (Traced.read_apply c), Proc.bind_apply] at h ⊢
  cases hs : Connection.sendData id data c with
  | ok n c' =>
    rw [hs] at h
    exact calms_moves (Trail.calms (Called.trail h))
  | err e c' =>
    rw [hs] at h
    exact calms_moves (Trail.calms (Called.trail h))
  | panic =>
    rw [hs] at h
    exact h

theorem tells_askSshWrite : Tells askSshWrite :=
  tells_ask (fun w => { w with sshWrites := w.sshWrites.tail }) _

theorem tells_askSshRead : Tells askSshRead :=
  tells_ask (fun w => { w with sshReads := w.sshReads.tail }) _

theorem tells_sshWriteLoop : ∀ (fuel : Nat) (progress : Bool), Tells (sshWriteLoop fuel progress)
  | 0, progress => tells_pure progress
  | fuel + 1, progress => by
      refine tells_peekOut.bind fun chunk => ?_
      cases chunk with
      | none => exact tells_pure _
      | some b =>
        refine tells_askSshWrite.bind fun answer => ?_
        split
        · exact tells_throw _
        · exact (tells_observe _).bind fun _ => (tells_call (.consumeOut _)).bind fun _ =>
            tells_sshWriteLoop fuel true
        · exact tells_throw _
        · exact tells_pure _
        · exact tells_pure _

theorem tells_pollSshWrite : Tells pollSshWrite :=
  tells_read.bind fun _ => tells_sshWriteLoop _ _

theorem tells_pollSshRead : Tells pollSshRead := by
  refine tells_askSshRead.bind fun answer => ?_
  split
  · refine tells_ite ?_ ?_
    · exact (tells_call (.disconnect _ _)).bind fun _ => tells_pure _
    · exact (tells_observe _).bind fun _ => (tells_call (.recv _)).bind fun _ =>
        (tells_call .processIn).bind fun _ => tells_pure _
  · exact tells_throw _
  · exact tells_pure _
  · exact tells_pure _

theorem tells_askClock (id : UInt32) : Tells (askClock id) :=
  tells_ask (fun w => { w with clock := dropFirst w.clock id }) _

theorem tells_handleEvent (ev : Event) : Tells (handleEvent ev) := by
  cases ev with
  | openSession id => exact tells_call (.confirmOpen id)
  | openDirectTcpIp id host port =>
    exact (tells_askClock id).bind fun _ => tells_read.bind fun _ => tells_insertDest id _
  | channelEof id =>
    refine tells_read.bind fun s => ?_
    split
    · exact tells_setDest id _
    · exact tells_pure _
  | channelClose id => exact tells_removeDest id
  | _ => exact tells_pure _

theorem tells_handleEvents : Tells handleEvents := by
  refine tells_read.bind fun s => ?_
  generalize s.session.conn.now.events.length + 1 = fuel
  induction fuel with
  | zero => exact tells_pure ()
  | succ fuel ih =>
    refine tells_popEvent.bind fun ev => ?_
    cases ev with
    | none => exact tells_pure ()
    | some ev => exact (tells_handleEvent ev).bind fun _ => ih

theorem tells_scanConnects : ∀ ds : Dests, Tells (scanConnects ds)
  | [] => tells_pure _
  | (_, .up _ _) :: ds => tells_scanConnects ds
  | (id, .connecting _ _ deadline) :: ds => by
      refine (tells_askClock id).bind fun now => tells_ite ?_ ?_
      · exact (tells_scanConnects ds).bind fun _ => tells_pure _
      · refine (tells_ask (fun w => { w with connects := dropFirst w.connects id }) _).bind
          fun answer => ?_
        cases answer with
        | ready => exact (tells_scanConnects ds).bind fun _ => tells_pure _
        | failed msg => exact (tells_scanConnects ds).bind fun _ => tells_pure _
        | pending => exact tells_scanConnects ds

theorem tells_timeOut (id : UInt32) : Tells (timeOut id) :=
  (tells_removeDest id).bind fun _ => (tells_observe _).bind fun _ => tells_call (.failOpen id _ _)

theorem tells_finishConnect : ∀ p, Tells (finishConnect p)
  | (id, none) => (tells_removeDest id).bind fun _ => (tells_observe _).bind fun _ =>
      (tells_call (.confirmOpen id)).bind fun _ => tells_insertDest id _
  | (id, some _) => (tells_removeDest id).bind fun _ => (tells_observe _).bind fun _ =>
      tells_call (.failOpen id _ _)

theorem tells_pollConnects : Tells pollConnects :=
  tells_read.bind fun _ => (tells_scanConnects _).bind fun _ =>
    (Tells.forEach tells_timeOut _).bind fun _ =>
      (Tells.forEach tells_finishConnect _).bind fun _ => tells_pure _

theorem tells_askDestWrite (id : UInt32) : Tells (askDestWrite id) :=
  tells_ask (fun w => { w with destWrites := dropFirst w.destWrites id }) _

theorem tells_askDestRead (id : UInt32) : Tells (askDestRead id) :=
  tells_ask (fun w => { w with destReads := dropFirst w.destReads id }) _

theorem tells_destWriteLoop (id : UInt32) :
    ∀ (fuel : Nat) (progress : Bool), Tells (destWriteLoop id fuel progress)
  | 0, _ => tells_pure _
  | fuel + 1, progress => by
      refine tells_read.bind fun s => ?_
      split
      · refine (tells_askDestWrite id).bind fun answer => ?_
        split
        · exact (tells_setDest id _).bind fun _ => tells_pure _
        · exact (tells_observe _).bind fun _ => (tells_call (.consumeInbound id _)).bind fun _ =>
            tells_destWriteLoop id fuel true
        · exact (tells_ignore (.sendEof id)).bind fun _ => (tells_ignore (.sendClose id)).bind fun _ =>
            (tells_removeDest id).bind fun _ => tells_pure _
        · exact tells_pure _
        · exact tells_pure _
      · exact tells_pure _

theorem tells_destRead (id : UInt32) (progress : Bool) : Tells (destRead id progress) := by
  refine tells_read.bind fun s => ?_
  split
  · refine tells_ite ?_ (tells_pure _)
    refine (tells_askDestRead id).bind fun answer => ?_
    split
    · refine tells_ite ?_ ?_
      · exact (tells_setDest id _).bind fun _ => (tells_call (.sendEof id)).bind fun _ => tells_pure _
      · exact (tells_sendData id _).bind fun _ => (tells_observe _).bind fun _ => tells_pure _
    · exact (tells_call (.sendEof id)).bind fun _ => (tells_call (.sendClose id)).bind fun _ =>
        (tells_removeDest id).bind fun _ => tells_pure _
    · exact tells_pure _
    · exact tells_pure _
  · exact tells_pure _

theorem tells_destDone (id : UInt32) (progress : Bool) : Tells (destDone id progress) := by
  refine tells_read.bind fun s => ?_
  split
  · exact tells_ite ((tells_call (.sendClose id)).bind fun _ => (tells_removeDest id).bind fun _ =>
      tells_pure _) (tells_pure _)
  · exact tells_pure _

theorem tells_pollDestOne (id : UInt32) : Tells (pollDestOne id) :=
  tells_read.bind fun _ => (tells_destWriteLoop id _ _).bind fun _ =>
    tells_ite (tells_pure _) ((tells_destRead id _).bind fun _ =>
      tells_ite (tells_pure _) (tells_destDone id _))

theorem tells_destLoop : ∀ (ids : List UInt32) (progress : Bool), Tells (destLoop ids progress)
  | [], _ => tells_pure _
  | id :: ids, progress => tells_read.bind fun _ =>
      tells_ite ((tells_removeDest id).bind fun _ => tells_destLoop ids progress)
        (tells_ite (tells_destLoop ids progress) ((tells_pollDestOne id).bind fun _ =>
          tells_destLoop ids _))

theorem tells_pollDests : Tells pollDests :=
  tells_roundRobinIds.bind fun ids => tells_destLoop ids false

-- ============================================================================
-- Progress of the single parts
-- ============================================================================

variable {s s' : Host}

omit [CryptoLib] in
theorem did_removeDest {id : UInt32} {d : Dest} (h : removeDest id s = .ok () s')
    (hd : s.now.session.dests.get? id = some d) : Did s s' := by
  cases h
  refine ⟨[_], rfl, _, List.mem_singleton_self _, ?_⟩
  show s.now.session.dests.get? id ≠ (s.now.session.dests.remove id).get? id
  rw [hd, get?_remove, if_pos rfl]
  exact nofun

omit [CryptoLib] in
theorem did_setDest {id : UInt32} {d e : Dest} (h : setDest id e s = .ok () s')
    (hd : s.now.session.dests.get? id = some d) (hne : d ≠ e) : Did s s' := by
  cases h
  refine ⟨[_], rfl, _, List.mem_singleton_self _, ?_⟩
  show s.now.session.dests.get? id ≠ (s.now.session.dests.set id e).get? id
  rw [get?_set, if_pos rfl, hd]
  exact fun heq => hne (Option.some.inj heq)

/-- Every later round, and the first one if it went on, moved bytes. -/
theorem did_sshWriteLoop {fuel : Nat} {progress : Bool} (hwf : WellFormed s.now.session.conn)
    (h : sshWriteLoop fuel progress s = .ok true s') : progress = true ∨ Did s s' := by
  cases fuel with
  | zero =>
    cases h
    exact .inl rfl
  | succ fuel =>
    rw [sshWriteLoop] at h
    obtain ⟨chunk, s1, h1, h⟩ := Outcome.of_bind_eq_ok h
    have ht1 := tells_peekOut _ _ _ hwf h1
    cases chunk with
    | none =>
      cases h
      exact .inl rfl
    | some b =>
      dsimp only at h
      obtain ⟨answer, s2, h2, h⟩ := Outcome.of_bind_eq_ok h
      have ht2 := tells_askSshWrite _ _ _ (ht1.wellFormed hwf) h2
      cases hup : answer.upTo b.length with
      | ready n =>
        rw [hup] at h
        cases n with
        | zero => cases h
        | succ n =>
          dsimp only at h
          obtain ⟨u, s3, h3, h⟩ := Outcome.of_bind_eq_ok h
          have ht := ht1.trans ht2
          have ht3 := tells_observe _ _ _ _ (ht.wellFormed hwf) h3
          refine .inr (Did.of_observed ht h3 (Nat.succ_pos n) ?_)
          exact ((tells_call (.consumeOut (n + 1))).bind fun _ => tells_sshWriteLoop fuel true)
            _ _ _ ((ht.trans ht3).wellFormed hwf) h
      | failed =>
        rw [hup] at h
        cases h
      | wouldBlock =>
        rw [hup] at h
        cases h
        exact .inl rfl
      | pending =>
        rw [hup] at h
        cases h
        exact .inl rfl

theorem did_pollSshWrite (hwf : WellFormed s.now.session.conn) (h : pollSshWrite s = .ok true s') :
    Did s s' := by
  unfold pollSshWrite at h
  obtain ⟨w, s1, h1, h⟩ := Outcome.of_bind_eq_ok h
  cases h1
  exact (did_sshWriteLoop hwf h).resolve_left nofun

/-- The SSH socket is at its end: its next answer is a read of no bytes. -/
def AtEnd (w : World) : Prop := ∃ bytes, w.sshReads.head? = some (.ready bytes) ∧
  bytes.take (64 * 1024) = []

/-- The read that reports progress without any is the one at the end of the
    socket, on a connection that was closed before. -/
theorem did_pollSshRead (hwf : WellFormed s.now.session.conn) (h : pollSshRead s = .ok true s') :
    Did s s' ∨ (s.now.session.conn.now.closed = true ∧ AtEnd s.now.world) := by
  unfold pollSshRead at h
  obtain ⟨answer, s1, h1, h⟩ := Outcome.of_bind_eq_ok h
  have ht1 := tells_askSshRead _ _ _ hwf h1
  have hanswer : answer = s.now.world.sshReads.headD .pending := by cases h1; rfl
  have hconn : s1.now.session = s.now.session := by cases h1; rfl
  cases answer with
  | ready bytes =>
    dsimp only at h
    rw [Proc.ite_apply] at h
    split at h
    · rename_i hnil
      cases hcl : s.now.session.conn.now.closed with
      | true =>
        refine .inr ⟨rfl, bytes, ?_, hnil⟩
        cases hreads : s.now.world.sshReads with
        | nil =>
          rw [hreads] at hanswer
          cases hanswer
        | cons r rs =>
          rw [hreads] at hanswer
          exact congrArg some hanswer.symm
      | false =>
        obtain ⟨u, s2, h2, h⟩ := Outcome.of_bind_eq_ok h
        cases h
        obtain ⟨c, hc, rfl⟩ := onConn_ok h2
        have hup := Outcome.Sat.of_ok (Connection.disconnect_sat 11 "connection lost" _) hc
        rw [← hconn] at hcl
        have hreal : (Deed.called s1.now.session.conn.now c.now).Real := .inr ⟨hcl, hup.closed⟩
        exact .inl (Did.mono ⟨[_], rfl, _, List.mem_singleton_self _, hreal⟩ ht1 (.refl _))
    · rename_i hne
      obtain ⟨u, s2, h2, h⟩ := Outcome.of_bind_eq_ok h
      have ht2 := tells_observe _ _ _ _ (ht1.wellFormed hwf) h2
      refine .inl (Did.of_observed ht1 h2 (List.length_pos_iff.mpr hne) ?_)
      exact ((tells_call (.recv _)).bind fun _ => (tells_call .processIn).bind fun _ => tells_pure _)
        _ _ _ ((ht1.trans ht2).wellFormed hwf) h
  | failed => cases h
  | wouldBlock => cases h
  | pending => cases h

/-- A timeout or a connect that is done was resolved. -/
theorem did_timeOut {id : UInt32} (hwf : WellFormed s.now.session.conn)
    (h : timeOut id s = .ok () s') : Did s s' := by
  unfold timeOut at h
  obtain ⟨u, s1, h1, h⟩ := Outcome.of_bind_eq_ok h
  have ht1 := tells_removeDest _ _ _ _ hwf h1
  obtain ⟨u, s2, h2, h⟩ := Outcome.of_bind_eq_ok h
  have hwf2 := (ht1.trans (tells_observe _ _ _ _ (ht1.wellFormed hwf) h2)).wellFormed hwf
  exact Did.of_observed ht1 h2 trivial (tells_call (.failOpen id _ _) _ _ _ hwf2 h)

theorem did_finishConnect {p : UInt32 × Option String} (hwf : WellFormed s.now.session.conn)
    (h : finishConnect p s = .ok () s') : Did s s' := by
  obtain ⟨id, _ | msg⟩ := p
  · rw [finishConnect] at h
    obtain ⟨u, s1, h1, h⟩ := Outcome.of_bind_eq_ok h
    have ht1 := tells_removeDest _ _ _ _ hwf h1
    obtain ⟨u, s2, h2, h⟩ := Outcome.of_bind_eq_ok h
    have hwf2 := (ht1.trans (tells_observe _ _ _ _ (ht1.wellFormed hwf) h2)).wellFormed hwf
    exact Did.of_observed ht1 h2 trivial
      (((tells_call (.confirmOpen id)).bind fun _ => tells_insertDest id _) _ _ _ hwf2 h)
  · rw [finishConnect] at h
    obtain ⟨u, s1, h1, h⟩ := Outcome.of_bind_eq_ok h
    have ht1 := tells_removeDest _ _ _ _ hwf h1
    obtain ⟨u, s2, h2, h⟩ := Outcome.of_bind_eq_ok h
    have hwf2 := (ht1.trans (tells_observe _ _ _ _ (ht1.wellFormed hwf) h2)).wellFormed hwf
    exact Did.of_observed ht1 h2 trivial (tells_call (.failOpen id _ _) _ _ _ hwf2 h)

/-- If the body of a loop does something, so does a loop with a round. -/
theorem did_forEach {α : Type} {g : α → SessionM Unit} (hg : ∀ a, Tells (g a))
    (hdid : ∀ {s s' : Host} {a : α}, WellFormed s.now.session.conn → g a s = .ok () s' → Did s s')
    {xs : List α} (hne : xs ≠ []) (hwf : WellFormed s.now.session.conn)
    (h : Proc.forEach g xs s = .ok () s') : Did s s' := by
  cases xs with
  | nil => exact absurd rfl hne
  | cons x xs =>
    obtain ⟨u, s1, h1, h⟩ := Outcome.of_bind_eq_ok h
    have hwf1 := (hg x _ _ _ hwf h1).wellFormed hwf
    exact (hdid hwf h1).mono (.refl _) (Tells.forEach hg xs _ _ _ hwf1 h)

theorem did_pollConnects (hwf : WellFormed s.now.session.conn) (h : pollConnects s = .ok true s') :
    Did s s' := by
  unfold pollConnects at h
  obtain ⟨w, s1, h1, h⟩ := Outcome.of_bind_eq_ok h
  cases h1
  obtain ⟨⟨timeout, done⟩, s2, h2, h⟩ := Outcome.of_bind_eq_ok h
  have ht2 := tells_scanConnects _ _ _ _ hwf h2
  obtain ⟨u, s3, h3, h⟩ := Outcome.of_bind_eq_ok h
  have ht3 := Tells.forEach tells_timeOut _ _ _ _ (ht2.wellFormed hwf) h3
  obtain ⟨u, s4, h4, h⟩ := Outcome.of_bind_eq_ok h
  have ht4 := Tells.forEach tells_finishConnect _ _ _ _ ((ht2.trans ht3).wellFormed hwf) h4
  have hret : Outcome.ok (!timeout.isEmpty || !done.isEmpty) s4
      = (.ok true s' : Outcome Host SessionError Bool) := h
  injection hret with hsome hs
  subst hs
  by_cases hto : timeout = []
  · have hdone : done ≠ [] := by
      rintro rfl
      rw [hto] at hsome
      cases hsome
    exact (did_forEach tells_finishConnect did_finishConnect hdone
      ((ht2.trans ht3).wellFormed hwf) h4).mono (ht2.trans ht3) (.refl _)
  · exact (did_forEach tells_timeOut did_timeOut hto (ht2.wellFormed hwf) h3).mono ht2 ht4

/-- The first part of a target: it is gone only by a removal, and progress was
    there before or bytes moved. -/
theorem did_destWriteLoop {id : UInt32} {fuel : Nat} {progress q gone : Bool}
    (hwf : WellFormed s.now.session.conn)
    (h : destWriteLoop id fuel progress s = .ok (q, gone) s') :
    (gone = true ∧ Did s s') ∨ (gone = false ∧ (q = progress ∨ Did s s')) := by
  cases fuel with
  | zero =>
    cases h
    exact .inr ⟨rfl, .inl rfl⟩
  | succ fuel =>
    rw [destWriteLoop] at h
    obtain ⟨w, s1, h1, h⟩ := Outcome.of_bind_eq_ok h
    cases h1
    have hidle : (pure (progress, false) : SessionM Part) s = .ok (q, gone) s' →
        (gone = true ∧ Did s s') ∨ (gone = false ∧ (q = progress ∨ Did s s')) := by
      intro hpure
      cases hpure
      exact .inr ⟨rfl, .inl rfl⟩
    cases hchunk : s.now.session.conn.now.peekInbound id with
    | none =>
      rw [hchunk] at h
      exact hidle h
    | some chunk =>
    cases hdest : s.now.session.dests.get? id with
    | none =>
      rw [hchunk, hdest] at h
      exact hidle h
    | some d =>
    cases d with
    | connecting host port deadline =>
      rw [hchunk, hdest] at h
      exact hidle h
    | up writeShutdown readEof =>
      rw [hchunk, hdest] at h
      obtain ⟨answer, s2, h2, h⟩ := Outcome.of_bind_eq_ok h
      have ht2 := tells_askDestWrite _ _ _ _ hwf h2
      have hdest2 : s2.now.session.dests.get? id = some (.up writeShutdown readEof) := by
        cases h2
        exact hdest
      cases hup : answer.upTo chunk.length with
      | ready n =>
        rw [hup] at h
        cases n with
        | zero =>
          obtain ⟨u, s3, h3, h⟩ := Outcome.of_bind_eq_ok h
          cases h
          exact .inr ⟨rfl, .inl rfl⟩
        | succ n =>
          obtain ⟨u, s3, h3, h⟩ := Outcome.of_bind_eq_ok h
          have ht3 := tells_observe _ _ _ _ (ht2.wellFormed hwf) h3
          have hdid := Did.of_observed ht2 h3 (Nat.succ_pos n)
            (((tells_call (.consumeInbound id (n + 1))).bind fun _ => tells_destWriteLoop id fuel true)
              _ _ _ ((ht2.trans ht3).wellFormed hwf) h)
          cases gone with
          | true => exact .inl ⟨rfl, hdid⟩
          | false => exact .inr ⟨rfl, .inr hdid⟩
      | failed =>
        rw [hup] at h
        obtain ⟨u, s3, h3, h⟩ := Outcome.of_bind_eq_ok h
        obtain ⟨u, s4, h4, h⟩ := Outcome.of_bind_eq_ok h
        obtain ⟨u, s5, h5, h⟩ := Outcome.of_bind_eq_ok h
        cases h
        have ht3 := tells_ignore (.sendEof id) _ _ _ (ht2.wellFormed hwf) h3
        have ht4 := tells_ignore (.sendClose id) _ _ _ ((ht2.trans ht3).wellFormed hwf) h4
        have hdest4 : s4.now.session.dests.get? id = some (.up writeShutdown readEof) := by
          obtain ⟨c3, -, rfl⟩ := onConn_ok h3
          obtain ⟨c4, -, rfl⟩ := onConn_ok h4
          exact hdest2
        exact .inl ⟨rfl, (did_removeDest h5 hdest4).mono ((ht2.trans ht3).trans ht4) (.refl _)⟩
      | wouldBlock =>
        rw [hup] at h
        cases h
        exact .inr ⟨rfl, .inl rfl⟩
      | pending =>
        rw [hup] at h
        cases h
        exact .inr ⟨rfl, .inl rfl⟩

/-- `send_data` takes something of what is not empty if it is allowed to. -/
theorem sendDataCounted_pos {id : UInt32} {data : Bytes} {c c' : Conn} {n : Nat}
    (hne : data ≠ []) (hallow : 0 < c.now.outboundAllowance id)
    (h : Connection.sendDataCounted id data c = .ok n c') : 0 < n := by
  unfold Connection.sendDataCounted at h
  rw [Proc.bind_of_ok (Traced.read_apply c)] at h
  obtain ⟨m, c1, h1, h⟩ := Outcome.of_bind_eq_ok h
  cases h
  have htakes := ((Connection.sendData_sat id data c).of_ok h1).2.2
  have hlen := List.length_pos_iff.mpr hne
  omega

/-- The second part of a target: any progress of its own is a change. -/
theorem did_destRead {id : UInt32} {progress q gone : Bool} (hwf : WellFormed s.now.session.conn)
    (h : destRead id progress s = .ok (q, gone) s') :
    (gone = true ∧ Did s s') ∨ (gone = false ∧ (q = progress ∨ Did s s')) := by
  unfold destRead at h
  obtain ⟨w, s1, h1, h⟩ := Outcome.of_bind_eq_ok h
  cases h1
  have hidle : ∀ {s1 : Host}, (pure (progress, false) : SessionM Part) s1 = .ok (q, gone) s' →
      (gone = true ∧ Did s s') ∨ (gone = false ∧ (q = progress ∨ Did s s')) := by
    intro s1 hpure
    cases hpure
    exact .inr ⟨rfl, .inl rfl⟩
  dsimp only at h
  cases hdest : s.now.session.dests.get? id with
  | none =>
    rw [hdest] at h
    exact hidle h
  | some d =>
  cases d with
  | connecting host port deadline =>
    rw [hdest] at h
    exact hidle h
  | up writeShutdown readEof =>
  cases readEof with
  | true =>
    rw [hdest] at h
    exact hidle h
  | false =>
  rw [hdest] at h
  dsimp only at h
  rw [Proc.ite_apply] at h
  by_cases hallow : 0 < s.now.session.conn.now.outboundAllowance id
  · rw [if_pos hallow] at h
    obtain ⟨answer, s2, h2, h⟩ := Outcome.of_bind_eq_ok h
    have ht2 := tells_askDestRead _ _ _ _ hwf h2
    have hsession : s2.now.session = s.now.session := by
      cases h2
      rfl
    rw [← hsession] at hdest
    cases answer with
    | ready bytes =>
      dsimp only at h
      rw [Proc.ite_apply] at h
      split at h
      · obtain ⟨u, s3, h3, h⟩ := Outcome.of_bind_eq_ok h
        have ht3 := tells_setDest _ _ _ _ _ (ht2.wellFormed hwf) h3
        obtain ⟨u, s4, h4, h⟩ := Outcome.of_bind_eq_ok h
        have ht4 := tells_call (.sendEof id) _ _ _ ((ht2.trans ht3).wellFormed hwf) h4
        cases h
        exact .inr ⟨rfl, .inr ((did_setDest h3 hdest (by simp)).mono ht2 ht4)⟩
      · rename_i hne
        obtain ⟨sent, s3, h3, h⟩ := Outcome.of_bind_eq_ok h
        have ht3 := tells_sendData _ _ _ _ _ (ht2.wellFormed hwf) h3
        have hpos : 0 < sent := by
          obtain ⟨c, hc, -⟩ := onConn_ok h3
          rw [← hsession] at hallow
          exact sendDataCounted_pos hne hallow hc
        obtain ⟨u, s4, h4, h⟩ := Outcome.of_bind_eq_ok h
        cases h
        exact .inr ⟨rfl, .inr (Did.of_observed (ht2.trans ht3) h4 hpos (.refl _))⟩
    | failed =>
      obtain ⟨u, s3, h3, h⟩ := Outcome.of_bind_eq_ok h
      obtain ⟨u, s4, h4, h⟩ := Outcome.of_bind_eq_ok h
      obtain ⟨u, s5, h5, h⟩ := Outcome.of_bind_eq_ok h
      cases h
      have ht3 := tells_call (.sendEof id) _ _ _ (ht2.wellFormed hwf) h3
      have ht4 := tells_call (.sendClose id) _ _ _ ((ht2.trans ht3).wellFormed hwf) h4
      have hdest4 : s4.now.session.dests.get? id = some (.up writeShutdown false) := by
        obtain ⟨c3, -, rfl⟩ := onConn_ok h3
        obtain ⟨c4, -, rfl⟩ := onConn_ok h4
        exact hdest
      exact .inl ⟨rfl, (did_removeDest h5 hdest4).mono ((ht2.trans ht3).trans ht4) (.refl _)⟩
    | wouldBlock => exact hidle h
    | pending => exact hidle h
  · rw [if_neg hallow] at h
    exact hidle h

/-- Both directions of target `id` are done, and what the channel received is
    with the target. -/
def Finishing (session : Session) (id : UInt32) : Prop :=
  ∃ writeShutdown, session.dests.get? id = some (.up writeShutdown true) ∧
    (writeShutdown = true ∨ session.conn.now.channelGotEof id = true) ∧
    inboundEmpty session.conn.now id = true

omit [CryptoLib] in
theorem Finishing.same {a b : Session} {id : UInt32} (h : Finishing a id) (hsame : Alike a b) :
    Finishing b id := by
  obtain ⟨ws, hup, hdone, hempty⟩ := h
  refine ⟨ws, (hsame.dests id).trans hup, ?_, ?_⟩
  · rwa [Connection.channelGotEof, hsame.channels]
  · rwa [inboundEmpty, Connection.peekInbound, hsame.channels]

/-- The last part of a target: progress of its own is a removal, which happens
    when the target is finishing. -/
theorem did_destDone {id : UInt32} {progress q : Bool} (hwf : WellFormed s.now.session.conn)
    (h : destDone id progress s = .ok q s') :
    (q = progress ∧ ¬Finishing s.now.session id) ∨ Did s s' := by
  unfold destDone at h
  obtain ⟨w, s1, h1, h⟩ := Outcome.of_bind_eq_ok h
  cases h1
  have hidle : (pure progress : SessionM Bool) s = .ok q s' → q = progress := by
    intro hpure
    cases hpure
    rfl
  cases hdest : s.now.session.dests.get? id with
  | none =>
    rw [hdest] at h
    refine .inl ⟨hidle h, ?_⟩
    rintro ⟨_, hup, _⟩
    cases hdest.symm.trans hup
  | some d =>
  cases d with
  | connecting host port deadline =>
    rw [hdest] at h
    refine .inl ⟨hidle h, ?_⟩
    rintro ⟨_, hup, _⟩
    cases hdest.symm.trans hup
  | up writeShutdown readEof =>
    rw [hdest] at h
    dsimp only at h
    rw [Proc.ite_apply] at h
    split at h
    · obtain ⟨u, s2, h2, h⟩ := Outcome.of_bind_eq_ok h
      obtain ⟨u, s3, h3, h⟩ := Outcome.of_bind_eq_ok h
      cases h
      have ht2 := tells_call (.sendClose id) _ _ _ hwf h2
      have hdest2 : s2.now.session.dests.get? id = some (.up writeShutdown readEof) := by
        obtain ⟨c2, -, rfl⟩ := onConn_ok h2
        exact hdest
      exact .inr ((did_removeDest h3 hdest2).mono ht2 (.refl _))
    · rename_i hopen
      refine .inl ⟨hidle h, ?_⟩
      rintro ⟨ws, hup, hdone, hempty⟩
      cases hdest.symm.trans hup
      apply hopen
      rw [hempty]
      rcases hdone with hdone | hdone
      · simp [hdone]
      · simp [hdone]

/-- A target that is not finishing is left with the progress it made; one that
    is finishing is removed. -/
theorem did_pollDestOne {id : UInt32} {q : Bool} (hwf : WellFormed s.now.session.conn)
    (h : pollDestOne id s = .ok q s') :
    (q = false ∧ ¬Finishing s.now.session id) ∨ Did s s' := by
  unfold pollDestOne at h
  obtain ⟨w, s1, h1, h⟩ := Outcome.of_bind_eq_ok h
  cases h1
  obtain ⟨⟨p1, gone1⟩, s2, h2, h⟩ := Outcome.of_bind_eq_ok h
  have ht2 := tells_destWriteLoop id _ _ _ _ _ hwf h2
  rcases did_destWriteLoop hwf h2 with ⟨rfl, hdid⟩ | ⟨rfl, hp1⟩
  · cases h
    exact .inr hdid
  dsimp only at h
  rw [if_neg Bool.false_ne_true] at h
  obtain ⟨⟨p2, gone2⟩, s3, h3, h⟩ := Outcome.of_bind_eq_ok h
  have hwf2 := ht2.wellFormed hwf
  have ht3 := tells_destRead id _ _ _ _ hwf2 h3
  have ht : Told s s3 := ht2.trans ht3
  by_cases hdid : Did s s3
  · refine .inr (hdid.mono (.refl _) ?_)
    exact (tells_ite (tells_pure _) (tells_destDone id p2)) _ _ _ (ht.wellFormed hwf) h
  have hdid2 : ¬Did s s2 := fun hd => hdid (hd.mono (.refl _) ht3)
  have hdid3 : ¬Did s2 s3 := fun hd => hdid (hd.mono ht2 (.refl _))
  rcases did_destRead hwf2 h3 with ⟨-, hd⟩ | ⟨rfl, hp2⟩
  · exact absurd hd hdid3
  dsimp only at h
  rw [if_neg Bool.false_ne_true] at h
  have hp : p2 = false := (hp2.resolve_right hdid3).trans (hp1.resolve_right hdid2)
  rcases did_destDone (ht.wellFormed hwf) h with ⟨hq, hopen⟩ | hd
  · exact .inl ⟨hq.trans hp, fun hfin => hopen (hfin.same (ht.same hdid))⟩
  · exact .inr (hd.mono ht (.refl _))

/-- Channel `id` has a target that `poll_dests` looks after, and it is
    finishing. -/
structure Due (session : Session) (id : UInt32) : Prop where
  alive : session.conn.now.channelAlive id = true
  forwards : session.conn.now.channelKind id ≠ some .session
  finishing : Finishing session id

omit [CryptoLib] in
/-- It is due in every session that does not differ. -/
theorem Due.same {a b : Session} {id : UInt32} (h : Due a id) (hsame : Alike a b) : Due b id := by
  refine ⟨?_, ?_, h.finishing.same hsame⟩
  · rw [Connection.channelAlive, hsame.channels]
    exact h.alive
  · rw [Connection.channelKind, hsame.channels]
    exact h.forwards

theorem did_destLoop {ids : List UInt32} {progress q : Bool} (hwf : WellFormed s.now.session.conn)
    (h : destLoop ids progress s = .ok q s') :
    (q = progress ∧ ∀ id ∈ ids, ¬Due s.now.session id) ∨ Did s s' := by
  induction ids generalizing s progress with
  | nil =>
    cases h
    exact .inl ⟨rfl, nofun⟩
  | cons id ids ih =>
    rw [destLoop] at h
    obtain ⟨w, s1, h1, h⟩ := Outcome.of_bind_eq_ok h
    cases h1
    rw [Proc.ite_apply] at h
    -- what is not done by the first target is left to the others
    have hrest : ∀ {s1 : Host} {p : Bool}, Told s s1 → destLoop ids p s1 = .ok q s' →
        (p = progress ∧ ¬Due s.now.session id) ∨ Did s s1 →
        (q = progress ∧ ∀ j ∈ id :: ids, ¬Due s.now.session j) ∨ Did s s' := by
      intro s1 p ht1 hloop hone
      have ht2 := tells_destLoop ids p _ _ _ (ht1.wellFormed hwf) hloop
      by_cases hdid : Did s s1
      · exact .inr (hdid.mono (.refl _) ht2)
      obtain ⟨rfl, hopen⟩ := hone.resolve_right hdid
      rcases ih (ht1.wellFormed hwf) hloop with ⟨hq, hall⟩ | hd
      · refine .inl ⟨hq, fun j hj => ?_⟩
        rcases List.mem_cons.mp hj with rfl | hj
        · exact hopen
        · exact fun hdue => hall j hj (hdue.same (ht1.same hdid))
      · exact .inr (hd.mono ht1 (.refl _))
    split at h
    · rename_i hdead
      obtain ⟨u, s2, h2, h⟩ := Outcome.of_bind_eq_ok h
      refine hrest (tells_removeDest id _ _ _ hwf h2) h (.inl ⟨rfl, fun hdue => ?_⟩)
      rw [hdue.alive] at hdead
      cases hdead
    rw [Proc.ite_apply] at h
    split at h
    · rename_i hkind
      exact hrest (.refl s) h (.inl ⟨rfl, fun hdue => hdue.forwards hkind⟩)
    · obtain ⟨p, s2, h2, h⟩ := Outcome.of_bind_eq_ok h
      refine hrest (tells_pollDestOne id _ _ _ hwf h2) h ?_
      rcases did_pollDestOne hwf h2 with ⟨rfl, hopen⟩ | hd
      · exact .inl ⟨Bool.or_false _, fun hdue => hopen hdue.finishing⟩
      · exact .inr hd

omit [CryptoLib] in
/-- The ids that `round_robin_ids` returns are the live ones. -/
theorem roundRobinIds_ok {c c' : Conn} {ids : List UInt32}
    (h : Connection.roundRobinIds c = .ok ids c') (id : UInt32) :
    id ∈ ids ↔ id ∈ c.now.channels.iterIds := by
  unfold Connection.roundRobinIds at h
  rw [Proc.bind_of_ok (Traced.read_apply c)] at h
  dsimp only at h
  rw [Proc.ite_apply] at h
  split at h
  · cases h
    exact Iff.rfl
  · rename_i hids
    have hpos := List.length_pos_iff.mpr hids
    have hle := Nat.le_of_lt (Nat.mod_lt c.now.rr.toNat hpos)
    rw [Proc.bind_of_ok (Traced.update_apply _ c), Proc.bind_of_ok (Proc.splitAt_of_le hle _)] at h
    cases h
    rw [List.mem_append, or_comm, ← List.mem_append, List.take_append_drop]

/-- `poll_dests` reports progress when it made some, and attends to every
    target that is due. -/
theorem did_pollDests {q : Bool} (hwf : WellFormed s.now.session.conn)
    (hsound : Sound s.now.session.conn.now.channels) (h : pollDests s = .ok q s') :
    (q = false ∧ ∀ id, ¬Due s.now.session id) ∨ Did s s' := by
  unfold pollDests at h
  obtain ⟨ids, s1, h1, h⟩ := Outcome.of_bind_eq_ok h
  have ht1 := tells_roundRobinIds _ _ _ hwf h1
  by_cases hdid : Did s s1
  · exact .inr (hdid.mono (.refl _) (tells_destLoop ids false _ _ _ (ht1.wellFormed hwf) h))
  rcases did_destLoop (ht1.wellFormed hwf) h with ⟨hq, hall⟩ | hd
  · refine .inl ⟨hq, fun id hdue => hall id ?_ (hdue.same (ht1.same hdid))⟩
    obtain ⟨c, hc, -⟩ := onConn_ok h1
    obtain ⟨ch, hch⟩ := Option.isSome_iff_exists.mp hdue.alive
    exact (roundRobinIds_ok hc id).mpr (hsound.mem_iterIds hch)
  · exact .inr (hd.mono ht1 (.refl _))

-- ============================================================================
-- An iteration
-- ============================================================================

omit [CryptoLib] in
/-- A call on the connection keeps what does not depend on what it changes. -/
theorem keeps_onConn {α π : Type} {f : Site → π} {m : ConnM α}
    (hm : ∀ (s : Site) (c : Conn), (m s.session.conn).state? = some c →
      f { s with session := { s.session with conn := c } } = f s) :
    Proc.Keeps (fun s : Host => f s.now) (onConn m) := by
  intro s s' hend
  unfold onConn at hend
  dsimp only at hend
  cases hrun : m s.now.session.conn with
  | ok a c =>
    rw [hrun] at hend
    cases hend
    exact hm s.now c (congrArg Outcome.state? hrun)
  | err e c =>
    rw [hrun] at hend
    cases hend
    exact hm s.now c (congrArg Outcome.state? hrun)
  | panic =>
    rw [hrun] at hend
    cases hend

theorem keeps_pollSshWrite {π : Type} {f : Site → π}
    (hask : ∀ s : Site,
      f { s with world := { s.world with sshWrites := s.world.sshWrites.tail } } = f s)
    (hpeek : Proc.Keeps (fun s : Host => f s.now) (onConn Connection.peekOut))
    (htake : ∀ n, Proc.Keeps (fun s : Host => f s.now) (onConn (Connection.consumeOut n))) :
    Proc.Keeps (fun s : Host => f s.now) pollSshWrite := by
  refine Traced.keeps_read.bind fun w => ?_
  generalize w.world.sshWrites.length + 1 = fuel
  generalize false = progress
  induction fuel generalizing progress with
  | zero => exact Proc.keeps_pure _
  | succ fuel ih =>
    refine hpeek.bind fun chunk => ?_
    cases chunk with
    | none => exact Proc.keeps_pure _
    | some b =>
      have hanswer : Proc.Keeps (fun s : Host => f s.now) askSshWrite :=
        Proc.Keeps.bind Traced.keeps_read fun _ =>
          Proc.Keeps.bind (Traced.keeps_update hask) fun _ => Proc.keeps_pure _
      refine hanswer.bind fun answer => ?_
      split
      · exact Proc.keeps_throw _
      · exact (Traced.keeps_observe _).bind fun _ => (htake _).bind fun _ => ih true
      · exact Proc.keeps_throw _
      · exact Proc.keeps_pure _
      · exact Proc.keeps_pure _

theorem reads_pollSshWrite : Proc.Keeps (fun s : Host => s.now.world.sshReads) pollSshWrite :=
  keeps_pollSshWrite (f := fun s => s.world.sshReads) (fun _ => rfl)
    (keeps_onConn (f := fun s => s.world.sshReads) fun _ _ _ => rfl)
    fun _ => keeps_onConn (f := fun s => s.world.sshReads) fun _ _ _ => rfl

/-- An iteration that asks for another one changed something, or the connection
    was closed, the socket at its end and no target due. -/
theorem did_turn (hwf : WellFormed s.now.session.conn)
    (hsound : Sound s.now.session.conn.now.channels) (h : turn s = .ok .again s') :
    Did s s' ∨ (s.now.session.conn.now.closed = true ∧ AtEnd s.now.world ∧
      ∀ id, ¬Due s.now.session id) := by
  unfold turn at h
  obtain ⟨p1, s1, h1, h⟩ := Outcome.of_bind_eq_ok h
  obtain ⟨p2, s2, h2, h⟩ := Outcome.of_bind_eq_ok h
  obtain ⟨p3, s3, h3, h⟩ := Outcome.of_bind_eq_ok h
  obtain ⟨u4, s4, h4, h⟩ := Outcome.of_bind_eq_ok h
  obtain ⟨p5, s5, h5, h⟩ := Outcome.of_bind_eq_ok h
  obtain ⟨p6, s6, h6, h⟩ := Outcome.of_bind_eq_ok h
  obtain ⟨u7, s7, h7, h⟩ := Outcome.of_bind_eq_ok h
  obtain ⟨p8, s8, h8, h⟩ := Outcome.of_bind_eq_ok h
  -- from the start to each point, and from each point to the end
  have t1 := tells_pollSshWrite _ _ _ hwf h1
  have t2 := tells_pollSshRead _ _ _ (t1.wellFormed hwf) h2
  have t12 := t1.trans t2
  have t3 := tells_pollSshWrite _ _ _ (t12.wellFormed hwf) h3
  have t13 := t12.trans t3
  have t4 := tells_handleEvents _ _ _ (t13.wellFormed hwf) h4
  have t14 := t13.trans t4
  have t5 := tells_pollConnects _ _ _ (t14.wellFormed hwf) h5
  have t15 := t14.trans t5
  have t6 := tells_pollDests _ _ _ (t15.wellFormed hwf) h6
  have t16 := t15.trans t6
  have t7 := tells_handleEvents _ _ _ (t16.wellFormed hwf) h7
  have t17 := t16.trans t7
  have t8 := tells_pollSshWrite _ _ _ (t17.wellFormed hwf) h8
  have t68 := t7.trans t8
  have t58 := t6.trans t68
  have t48 := t5.trans t58
  have t38 := t4.trans t48
  have hlast : s8 = s' ∧ (p1 || p2 || p3 || p5 || p6 || p8) = true := by
    rw [Proc.bind_of_ok (Traced.read_apply s8), Proc.ite_apply, Proc.ite_apply,
      Proc.ite_apply] at h
    split at h
    · cases h
    split at h
    · cases h
    split at h
    · cases h
    · rename_i hp
      cases h
      rw [Bool.not_eq_true, Bool.not_eq_false'] at hp
      exact ⟨rfl, hp⟩
  obtain ⟨rfl, hprogress⟩ := hlast
  by_cases hdid : Did s s8
  · exact .inl hdid
  have hp1 : p1 = false := by
    cases p1 with
    | false => rfl
    | true => exact absurd ((did_pollSshWrite hwf h1).mono (.refl _) (t2.trans (t3.trans t38))) hdid
  have hp3 : p3 = false := by
    cases p3 with
    | false => rfl
    | true => exact absurd ((did_pollSshWrite (t12.wellFormed hwf) h3).mono t12 t38) hdid
  have hp5 : p5 = false := by
    cases p5 with
    | false => rfl
    | true => exact absurd ((did_pollConnects (t14.wellFormed hwf) h5).mono t14 t58) hdid
  have hp8 : p8 = false := by
    cases p8 with
    | false => rfl
    | true => exact absurd ((did_pollSshWrite (t17.wellFormed hwf) h8).mono t17 (.refl _)) hdid
  have hsame1 := t1.same fun hd => hdid (hd.mono (.refl _) (t2.trans (t3.trans t38)))
  have hsame5 := t15.same fun hd => hdid (hd.mono (.refl _) t58)
  have hsound5 : Sound s5.now.session.conn.now.channels := hsame5.channels ▸ hsound
  obtain ⟨hp6, hdue⟩ := (did_pollDests (t15.wellFormed hwf) hsound5 h6).resolve_right
    fun hd => hdid (hd.mono t15 t68)
  cases p2 with
  | false =>
    rw [hp1, hp3, hp5, hp6, hp8] at hprogress
    cases hprogress
  | true =>
    rcases did_pollSshRead (t1.wellFormed hwf) h2 with hd | ⟨hclosed, hatEnd⟩
    · exact absurd (hd.mono t1 (t3.trans t38)) hdid
    · refine .inr ⟨hsame1.closed.symm.trans hclosed, ?_, fun id h => hdue id (h.same hsame5)⟩
      have hreads : s1.now.world.sshReads = s.now.world.sshReads :=
        reads_pollSshWrite _ _ (congrArg Outcome.state? h1)
      unfold AtEnd at hatEnd
      rwa [hreads] at hatEnd

-- ============================================================================
-- Sessions at the head of the loop
-- ============================================================================

theorem events_queueMsg (owner : Option UInt32) (payload : Bytes) (priority : Bool) :
    Spared Connection.events (Connection.queueMsg owner payload priority) := by
  intro c c' hend
  refine Outcome.Sat.of_state (P := fun s => s.now.events = c.now.events)
    ((Connection.queueMsg_sat owner payload priority c).mono ?_ ?_) hend
  · intro _ c1 hq
    cases hq
    rfl
  · intro _ c1 hd
    cases hd
    rfl

theorem events_confirmOpen (id : UInt32) : Spared Connection.events (Connection.confirmOpen id) :=
  (Elsewhere.getChannel id).bind fun _ =>
    Proc.Keeps.bind (Traced.keeps_update fun _ => rfl) fun _ =>
      (Proc.keeps_okOr _ _).bind fun _ => events_queueMsg _ _ _

theorem events_maybeStartKex : Spared Connection.events Connection.maybeStartKex := by
  have hfill : ∀ n, Spared Connection.events (Connection.fillBytes n) := fun n =>
    Traced.keeps_read.bind fun _ =>
      Proc.Keeps.bind (Traced.keeps_update fun _ => rfl) fun _ => Proc.keeps_pure _
  have hephemeral : Spared Connection.events Connection.clientEphemeral :=
    Traced.keeps_read.bind fun _ =>
      Proc.keeps_ite ((hfill 32).bind fun _ => Proc.keeps_pure _) (Proc.keeps_pure _)
  have hstart : Spared Connection.events Connection.startKex :=
    Traced.keeps_read.bind fun _ => (hfill 16).bind fun _ => (events_queueMsg _ _ _).bind fun _ =>
      Proc.Keeps.bind (Traced.keeps_update fun _ => rfl) fun _ =>
        hephemeral.bind fun _ => Traced.keeps_update fun _ => rfl
  exact Traced.keeps_read.bind fun _ => Proc.keeps_ite (Proc.keeps_pure _) hstart.ignore

omit [CryptoLib] in
theorem events_pullCurrentOut (c : Connection) : c.pullCurrentOut.events = c.events := by
  obtain ⟨_, _, _, _, h⟩ := c.pullCurrentOut_eq
  rw [h]

theorem events_consumeOut (n : Nat) : Spared Connection.events (Connection.consumeOut n) := by
  intro c c' hend
  by_cases hn : n = 0
  · subst hn
    cases hend
    rfl
  cases hout : c.now.pullCurrentOut.currentOut with
  | none =>
    rw [Connection.consumeOut_empty hn hout] at hend
    cases hend
    exact events_pullCurrentOut c.now
  | some b =>
    rw [Connection.consumeOut_apply hn hout] at hend
    have hkeep := (Proc.keeps_ite events_maybeStartKex (Proc.keeps_pure ())) _ _ hend
    have hdrain : (c.now.pullCurrentOut.drained b (min n b.length)).events
        = c.now.pullCurrentOut.events := by
      unfold Connection.drained
      dsimp only
      split <;> split <;> rfl
    exact hkeep.trans (hdrain.trans (events_pullCurrentOut c.now))

/-- The events that wait in a site. -/
def waiting (s : Site) : List Event := s.session.conn.now.events

theorem events_pollSshWrite : Proc.Keeps (fun s : Host => waiting s.now) pollSshWrite :=
  keeps_pollSshWrite (fun _ => rfl)
    (keeps_onConn (f := waiting) fun s c hend => by
      cases hend
      exact events_pullCurrentOut s.session.conn.now)
    fun n => keeps_onConn (f := waiting) fun s c hend => events_consumeOut n _ _ hend

omit [CryptoLib] in
theorem events_putDests (id : UInt32) (f : Dests → Dests) :
    Proc.Keeps (fun s : Host => waiting s.now) (putDests id f) :=
  Proc.Keeps.bind Traced.keeps_read fun _ =>
    Proc.Keeps.bind (Traced.keeps_update (f := waiting) fun _ => rfl) fun _ =>
      Traced.keeps_observe _

theorem events_handleEvent (ev : Event) : Proc.Keeps (fun s : Host => waiting s.now) (handleEvent ev) := by
  cases ev with
  | openSession id =>
    exact keeps_onConn (f := waiting) fun s c hend => events_confirmOpen id _ _ hend
  | openDirectTcpIp id host port =>
    have hclock : Proc.Keeps (fun s : Host => waiting s.now) (askClock id) :=
      Proc.Keeps.bind Traced.keeps_read fun _ =>
        Proc.Keeps.bind (Traced.keeps_update (f := waiting) fun _ => rfl) fun _ =>
          Proc.keeps_pure _
    exact hclock.bind fun _ => Proc.Keeps.bind Traced.keeps_read fun _ => events_putDests _ _
  | channelEof id =>
    refine Proc.Keeps.bind Traced.keeps_read fun s => ?_
    split
    · exact events_putDests _ _
    · exact Proc.keeps_pure _
  | channelClose id => exact events_putDests _ _
  | _ => exact Proc.keeps_pure _

/-- `handle_events` empties the queue. -/
theorem events_handleEvents (h : handleEvents s = .ok () s') : waiting s'.now = [] := by
  unfold handleEvents at h
  obtain ⟨w, s1, h1, h⟩ := Outcome.of_bind_eq_ok h
  cases h1
  have hloop : ∀ (fuel : Nat) (s : Host), (waiting s.now).length < fuel →
      eventLoop fuel s = .ok () s' → waiting s'.now = [] := by
    intro fuel
    induction fuel with
    | zero => exact fun s hlt => absurd hlt (Nat.not_lt_zero _)
    | succ fuel ih =>
      intro s hlt h
      rw [eventLoop] at h
      obtain ⟨ev, s1, h1, h⟩ := Outcome.of_bind_eq_ok h
      obtain ⟨c, hc, hs1⟩ := onConn_ok h1
      cases hc
      have hw1 : waiting s1.now = s.now.session.conn.now.events.tail := by
        rw [hs1]
        rfl
      cases hev : s.now.session.conn.now.events with
      | nil =>
        rw [hev] at h hw1
        cases h
        exact hw1
      | cons e es =>
        rw [hev] at h
        obtain ⟨u, s2, h2, h⟩ := Outcome.of_bind_eq_ok h
        have hkeep : waiting s2.now = s.now.session.conn.now.events.tail :=
          (events_handleEvent e _ _ (congrArg Outcome.state? h2)).trans hw1
        refine ih s2 ?_ h
        rw [hkeep, hev]
        rw [waiting, hev, List.length_cons] at hlt
        exact Nat.lt_of_succ_lt_succ hlt
  exact hloop _ s (Nat.lt_succ_self _) h

/-- The sessions at the head of the loop of `poll`: a new one, and those that an
    iteration left, in whatever world it ran. -/
inductive AtLoop (cfg : ServerConfig) : Session → Prop where
  | new {rng : Rng} {conn : Conn} (connectTimeout : Nat)
      (h : (Setup.server cfg).run rng [] = .ok () conn) :
      AtLoop cfg ⟨conn, [], cfg.maxPacket, connectTimeout⟩
  | next {session : Session} {w : World} {log : List Deed} {r : Turn} {s' : Host}
      (hs : AtLoop cfg session) (h : turn ⟨⟨session, w⟩, log⟩ = .ok r s') (hr : r ≠ .done) :
      AtLoop cfg s'.now.session

theorem tells_turn : Tells turn :=
  tells_pollSshWrite.bind fun _ => tells_pollSshRead.bind fun _ => tells_pollSshWrite.bind fun _ =>
    tells_handleEvents.bind fun _ => tells_pollConnects.bind fun _ => tells_pollDests.bind fun _ =>
      tells_handleEvents.bind fun _ => tells_pollSshWrite.bind fun _ => tells_read.bind fun _ =>
        tells_ite (tells_pure _) (tells_ite (tells_pure _) (tells_ite (tells_pure _) (tells_pure _)))

/-- An iteration that does not end the session leaves no event, and a closed
    connection only with output. -/
theorem turn_leaves {r : Turn} (h : turn s = .ok r s') (hr : r ≠ .done) :
    waiting s'.now = [] ∧
      (s'.now.session.conn.now.closed = true → s'.now.session.conn.now.wantsWrite = true) := by
  unfold turn at h
  obtain ⟨p1, s1, -, h⟩ := Outcome.of_bind_eq_ok h
  obtain ⟨p2, s2, -, h⟩ := Outcome.of_bind_eq_ok h
  obtain ⟨p3, s3, -, h⟩ := Outcome.of_bind_eq_ok h
  obtain ⟨u4, s4, -, h⟩ := Outcome.of_bind_eq_ok h
  obtain ⟨p5, s5, -, h⟩ := Outcome.of_bind_eq_ok h
  obtain ⟨p6, s6, -, h⟩ := Outcome.of_bind_eq_ok h
  obtain ⟨u7, s7, h7, h⟩ := Outcome.of_bind_eq_ok h
  obtain ⟨p8, s8, h8, h⟩ := Outcome.of_bind_eq_ok h
  have hevents : waiting s8.now = [] :=
    (events_pollSshWrite _ _ (congrArg Outcome.state? h8)).trans (events_handleEvents h7)
  rw [Proc.bind_of_ok (Traced.read_apply s8), Proc.ite_apply, Proc.ite_apply, Proc.ite_apply] at h
  split at h
  · cases h
    exact absurd rfl hr
  rename_i hopen
  have hunsent : s8.now.session.conn.now.closed = true →
      s8.now.session.conn.now.wantsWrite = true := by
    intro hclosed
    simpa [Connection.isFinished, hclosed] using hopen
  split at h
  · cases h
    exact absurd rfl hr
  split at h
  · cases h
    exact ⟨hevents, hunsent⟩
  · cases h
    exact ⟨hevents, hunsent⟩

/-- What holds at the head of the loop. -/
structure Ready (cfg : ServerConfig) (session : Session) : Prop where
  reaches : (Setup.server cfg).Reaches session.conn
  events : session.conn.now.events = []
  unsent : session.conn.now.closed = true → session.conn.now.wantsWrite = true

theorem AtLoop.ready {cfg : ServerConfig} {session : Session} (h : AtLoop cfg session) :
    Ready cfg session := by
  induction h with
  | new connectTimeout h =>
    obtain ⟨c0, hstart, hrun⟩ := (Setup.server cfg).run_start _
    cases (hrun []).symm.trans h
    refine ⟨.of_run h, ?_, ?_⟩
    · cases hstart with
      | mk hq =>
        cases hq
        rfl
    · cases hstart with
      | mk hq =>
        cases hq
        exact nofun
  | next hs h hr ih =>
    have htold := tells_turn _ _ _ ih.reaches.wellFormed h
    obtain ⟨rng, c0, hstart, hmoves⟩ := ih.reaches
    have hleaves := turn_leaves h hr
    exact ⟨⟨rng, c0, hstart, hmoves.trans htold.moves⟩, hleaves.1, hleaves.2⟩

-- ============================================================================
-- An iteration on which nothing happens
-- ============================================================================

/-- The sockets, the connects and the clock have nothing new, apart from the end
    of the SSH socket. -/
structure Mute (w : World) : Prop where
  sshWrites : w.sshWrites = []
  clock : ∀ id, w.clock id = []
  connects : ∀ id, w.connects id = []
  destWrites : ∀ id, w.destWrites id = []
  destReads : ∀ id, w.destReads id = []

/-- A closed connection with output, in a world that takes none of it. -/
structure Stuck (s : Site) : Prop where
  table : TableOk s.session.conn.now.channels
  sound : Sound s.session.conn.now.channels
  balanced : Balanced s.session.conn.now
  events : s.session.conn.now.events = []
  closed : s.session.conn.now.closed = true
  unsent : s.session.conn.now.wantsWrite = true
  idle : ∀ id, ¬Due s.session id
  mute : Mute s.world

/-- Nothing that counts happened between `s` and `s'`, and it is stuck as before. -/
structure Idled (s s' : Host) : Prop where
  stuck : Stuck s'.now
  same : Alike s.now.session s'.now.session
  unreal : ∃ new, s'.log = s.log ++ new ∧ ∀ o ∈ new, ¬o.Real

/-- `m` returns `a`, nothing happens, and the SSH socket was not read. -/
def Idles {α : Type} (m : SessionM α) (a : α) (s : Host) : Prop :=
  ∃ s', m s = .ok a s' ∧ Idled s s' ∧ s'.now.world.sshReads = s.now.world.sshReads

section

variable {α β : Type} {s s1 s' : Host} {m : SessionM α} {a : α}

omit [CryptoLib] in
theorem Idled.refl (h : Stuck s.now) : Idled s s :=
  ⟨h, .refl _, [], (List.append_nil _).symm, fun _ ho => absurd ho List.not_mem_nil⟩

omit [CryptoLib] in
theorem Idled.trans (h : Idled s s1) (h' : Idled s1 s') : Idled s s' := by
  obtain ⟨new, hlog, hnew⟩ := h.unreal
  obtain ⟨new', hlog', hnew'⟩ := h'.unreal
  refine ⟨h'.stuck, h.same.trans h'.same, new ++ new', ?_, fun o ho => ?_⟩
  · rw [hlog', hlog, List.append_assoc]
  · exact (List.mem_append.mp ho).elim (hnew o) (hnew' o)

omit [CryptoLib] in
theorem Idled.not_did (h : Idled s s') : ¬Did s s' := by
  obtain ⟨new, hlog, hnew⟩ := h.unreal
  rintro ⟨new', hlog', o, ho, hreal⟩
  rw [List.append_cancel_left (hlog'.symm.trans hlog)] at ho
  exact hnew o ho hreal

omit [CryptoLib] in
theorem idles_pure (h : Stuck s.now) (a : α) : Idles (pure a) a s := ⟨s, rfl, .refl h, rfl⟩

omit [CryptoLib] in
theorem Idles.bind {g : α → SessionM β} {b : β} (hm : Idles m a s)
    (hg : ∀ s1, Idled s s1 → Idles (g a) b s1) : Idles (m >>= g) b s := by
  obtain ⟨s1, h1, hi1, hr1⟩ := hm
  obtain ⟨s2, h2, hi2, hr2⟩ := hg s1 hi1
  exact ⟨s2, (Proc.bind_of_ok h1).trans h2, hi1.trans hi2, hr2.trans hr1⟩

omit [CryptoLib] in
theorem Idles.after {s2 : Host} (h : Idled s s2) (hm : Idles m a s2) :
    ∃ s', m s2 = .ok a s' ∧ Idled s s' ∧ s'.now.world.sshReads = s2.now.world.sshReads := by
  obtain ⟨s3, h3, hi3, hr3⟩ := hm
  exact ⟨s3, h3, h.trans hi3, hr3⟩

omit [CryptoLib] in
theorem idles_read {g : Site → SessionM β} {b : β} (h : Idles (g s.now) b s) :
    Idles (read >>= g) b s := by
  obtain ⟨s2, h2, hi2⟩ := h
  exact ⟨s2, (Proc.bind_of_ok (Traced.read_apply s)).trans h2, hi2⟩

omit [CryptoLib] in
/-- A question to a mute world. -/
theorem idles_ask {f : World → World} {g : Site → α} (h : Stuck s.now) (hmute : Mute (f s.now.world))
    (hreads : (f s.now.world).sshReads = s.now.world.sshReads) :
    Idles (do let s ← read; update fun s => { s with world := f s.world }; return g s)
      (g s.now) s :=
  ⟨_, rfl, ⟨⟨h.table, h.sound, h.balanced, h.events, h.closed, h.unsent, h.idle, hmute⟩, .refl _,
    [], (List.append_nil _).symm, fun _ ho => absurd ho List.not_mem_nil⟩, hreads⟩

omit [CryptoLib] in
/-- A call on the connection that leaves the channels alone. -/
theorem idles_onConn {m : ConnM α} {c : Conn} (h : Stuck s.now)
    (hrun : m s.now.session.conn = .ok a c)
    (hch : c.now.channels = s.now.session.conn.now.channels) (hb : Balanced c.now)
    (hev : c.now.events = []) (hcl : c.now.closed = true) (hw : c.now.wantsWrite = true) :
    Idles (onConn m) a s := by
  have hsame : Alike s.now.session { s.now.session with conn := c } :=
    ⟨hch, hcl.trans h.closed.symm, fun _ => rfl⟩
  refine ⟨_, onConn_apply hrun, ⟨?_, hsame, [_], rfl, ?_⟩, rfl⟩
  · exact ⟨hch ▸ h.table, hch ▸ h.sound, hb, hev, hcl, hw,
      fun id hdue => h.idle id (hdue.same hsame.symm), h.mute⟩
  · intro o ho
    rw [List.mem_singleton.mp ho]
    rintro (hreal | hreal)
    · exact hreal hch.symm
    · rw [h.closed] at hreal
      cases hreal.1

end

omit [CryptoLib] in
theorem idles_peekOut (h : Stuck s.now) :
    Idles (onConn Connection.peekOut) s.now.session.conn.now.peeked s := by
  have hpull := pulls_pullCurrentOut s.now.session.conn.now
  obtain ⟨_, _, _, _, heq⟩ := s.now.session.conn.now.pullCurrentOut_eq
  refine idles_onConn h (Connection.peekOut_apply _) ?_ (hpull.balanced h.balanced) ?_ ?_ ?_
  · rw [heq]
  · rw [heq]
    exact h.events
  · rw [heq]
    exact h.closed
  · have hsome := (hpull.wantsWrite h.balanced).mp h.unsent
    cases hout : s.now.session.conn.now.pullCurrentOut.currentOut with
    | none =>
      rw [hout] at hsome
      cases hsome
    | some b =>
      rw [hout] at hsome
      have hne : (!b.isEmpty) = true := by
        cases b with
        | nil => cases hsome
        | cons x xs => rfl
      simp [Connection.wantsWrite, hout, hne]

theorem idles_pollSshWrite (h : Stuck s.now) : Idles pollSshWrite false s := by
  refine idles_read ?_
  rw [h.mute.sshWrites]
  refine (idles_peekOut h).bind fun s1 h1 => ?_
  cases s.now.session.conn.now.peeked with
  | none => exact idles_pure h1.stuck _
  | some b =>
    have hm := h1.stuck.mute
    have hask : Idles askSshWrite .pending s1 := by
      have := idles_ask (f := fun w => { w with sshWrites := w.sshWrites.tail })
        (g := fun s => s.world.sshWrites.headD .pending) h1.stuck
        ⟨by rw [hm.sshWrites]; rfl, hm.clock, hm.connects, hm.destWrites, hm.destReads⟩ rfl
      rw [hm.sshWrites] at this
      exact this
    exact hask.bind fun _ h2 => idles_pure h2.stuck _

theorem idles_handleEvents (h : Stuck s.now) : Idles handleEvents () s := by
  refine idles_read ?_
  rw [h.events]
  have hpop : Idles (onConn Connection.popEvent) none s := by
    refine idles_onConn h (c := ⟨{ s.now.session.conn.now with
      events := s.now.session.conn.now.events.tail }, s.now.session.conn.log⟩) ?_ rfl
      (h.balanced.congr rfl) ?_ h.closed h.unsent
    · rw [Connection.popEvent, Proc.bind_of_ok (Traced.read_apply _),
        Proc.bind_of_ok (Traced.update_apply _ _), h.events]
      rfl
    · show s.now.session.conn.now.events.tail = []
      rw [h.events]
      rfl
  exact hpop.bind fun _ h1 => idles_pure h1.stuck ()

omit [CryptoLib] in
theorem dropFirst_mute {α : Type} {answers : UInt32 → List α} (h : ∀ id, answers id = [])
    (id j : UInt32) : dropFirst answers id j = [] := by
  unfold dropFirst
  rw [h j]
  split <;> rfl

omit [CryptoLib] in
theorem idles_askClock (h : Stuck s.now) (id : UInt32) : Idles (askClock id) 0 s := by
  have hm := h.mute
  have hask := idles_ask (f := fun w => { w with clock := dropFirst w.clock id })
    (g := fun s => (s.world.clock id).headD 0) h
    ⟨hm.sshWrites, dropFirst_mute hm.clock id, hm.connects, hm.destWrites, hm.destReads⟩ rfl
  rwa [hm.clock] at hask

omit [CryptoLib] in
theorem idles_askConnect (h : Stuck s.now) (id : UInt32) : Idles (askConnect id) .pending s := by
  have hm := h.mute
  have hask := idles_ask (f := fun w => { w with connects := dropFirst w.connects id })
    (g := fun s => (s.world.connects id).headD .pending) h
    ⟨hm.sshWrites, hm.clock, dropFirst_mute hm.connects id, hm.destWrites, hm.destReads⟩ rfl
  rwa [hm.connects] at hask

omit [CryptoLib] in
theorem idles_askDestWrite (h : Stuck s.now) (id : UInt32) : Idles (askDestWrite id) .pending s := by
  have hm := h.mute
  have hask := idles_ask (f := fun w => { w with destWrites := dropFirst w.destWrites id })
    (g := fun s => (s.world.destWrites id).headD .pending) h
    ⟨hm.sshWrites, hm.clock, hm.connects, dropFirst_mute hm.destWrites id, hm.destReads⟩ rfl
  rwa [hm.destWrites] at hask

omit [CryptoLib] in
theorem idles_askDestRead (h : Stuck s.now) (id : UInt32) : Idles (askDestRead id) .pending s := by
  have hm := h.mute
  have hask := idles_ask (f := fun w => { w with destReads := dropFirst w.destReads id })
    (g := fun s => (s.world.destReads id).headD .pending) h
    ⟨hm.sshWrites, hm.clock, hm.connects, hm.destWrites, dropFirst_mute hm.destReads id⟩ rfl
  rwa [hm.destReads] at hask

omit [CryptoLib] in
theorem idles_scanConnects : ∀ (ds : Dests) {s : Host}, Stuck s.now →
    Idles (scanConnects ds) ([], []) s
  | [], _, h => idles_pure h _
  | (_, .up _ _) :: ds, _, h => idles_scanConnects ds h
  | (id, .connecting _ _ deadline) :: ds, _, h => by
      refine (idles_askClock h id).bind fun _ h1 => ?_
      rw [if_neg (Nat.not_lt_zero _)]
      exact (idles_askConnect h1.stuck id).bind fun _ h2 => idles_scanConnects ds h2.stuck

theorem idles_pollConnects (h : Stuck s.now) : Idles pollConnects false s :=
  idles_read ((idles_scanConnects _ h).bind fun _ h1 => (idles_pure h1.stuck ()).bind fun _ h2 =>
    (idles_pure h2.stuck ()).bind fun _ h3 => idles_pure h3.stuck _)

theorem idles_destWriteLoop (h : Stuck s.now) (id : UInt32) (fuel : Nat) :
    Idles (destWriteLoop id (fuel + 1) false) (false, false) s := by
  refine idles_read ?_
  split
  · exact (idles_askDestWrite h id).bind fun _ h1 => idles_pure h1.stuck _
  · exact idles_pure h _

theorem idles_destRead (h : Stuck s.now) (id : UInt32) :
    Idles (destRead id false) (false, false) s := by
  refine idles_read ?_
  dsimp only
  split
  · split
    · exact (idles_askDestRead h id).bind fun _ h1 => idles_pure h1.stuck _
    · exact idles_pure h _
  · exact idles_pure h _

theorem idles_destDone (h : Stuck s.now) {id : UInt32} (hopen : ¬Finishing s.now.session id) :
    Idles (destDone id false) false s := by
  refine idles_read ?_
  split
  · rename_i writeShutdown readEof hdest
    dsimp only
    rw [if_neg]
    · exact idles_pure h _
    · intro hdone
      simp only [Bool.and_eq_true, Bool.or_eq_true] at hdone
      obtain ⟨⟨rfl, hdone⟩, hempty⟩ := hdone
      exact hopen ⟨writeShutdown, hdest, hdone, hempty⟩
  · exact idles_pure h _

theorem idles_pollDestOne (h : Stuck s.now) {id : UInt32} (hopen : ¬Finishing s.now.session id) :
    Idles (pollDestOne id) false s := by
  refine idles_read ((idles_destWriteLoop h id _).bind fun s1 h1 => ?_)
  refine (idles_destRead h1.stuck id).bind fun s2 h2 => ?_
  exact idles_destDone h2.stuck fun hfin => hopen (hfin.same (h1.trans h2).same.symm)

theorem idles_destLoop : ∀ (ids : List UInt32) {s : Host}, Stuck s.now →
    (∀ id ∈ ids, s.now.session.conn.now.channelAlive id = true) → Idles (destLoop ids false) false s
  | [], _, h, _ => idles_pure h _
  | id :: ids, s, h, hall => by
      have hrest : ∀ s1, Idled s s1 → Idles (destLoop ids false) false s1 := by
        intro s1 h1
        refine idles_destLoop ids h1.stuck fun j hj => ?_
        rw [Connection.channelAlive, h1.same.channels]
        exact hall j (List.mem_cons_of_mem _ hj)
      refine idles_read ?_
      rw [hall id List.mem_cons_self, if_neg (by decide)]
      split
      · exact hrest s (.refl h)
      · rename_i hkind
        have hopen : ¬Finishing s.now.session id := fun hfin =>
          h.idle id ⟨hall id List.mem_cons_self, hkind, hfin⟩
        exact (idles_pollDestOne h hopen).bind hrest

omit [CryptoLib] in
/-- What is listed is live. -/
theorem channelAlive_of_mem (h : Stuck s.now) {id : UInt32}
    (hid : id ∈ s.now.session.conn.now.channels.iterIds) :
    s.now.session.conn.now.channelAlive id = true := by
  obtain ⟨slot, hslot, hlocal⟩ := List.mem_filterMap.mp hid
  obtain ⟨ch, rfl, hch⟩ := Option.map_eq_some_iff.mp hlocal
  obtain ⟨i, hi, hget⟩ := List.getElem_of_mem hslot
  have hlt : i < UInt32.size :=
    Nat.lt_of_lt_of_le hi (Nat.le_trans h.table.bound (Nat.le_of_lt (UInt32.toNat_lt _)))
  have hlive : s.now.session.conn.now.channels.get? (UInt32.ofNat i) = some ch := by
    rw [ChannelTable.get?, UInt32.toNat_ofNat_of_lt' hlt, List.getElem?_eq_getElem hi, hget]
    rfl
  rw [← hch, (h.sound _ ch hlive).1, Connection.channelAlive, hlive]
  rfl

omit [CryptoLib] in
theorem idles_roundRobinIds (h : Stuck s.now) : ∃ ids, Idles (onConn Connection.roundRobinIds) ids s ∧
    ∀ id ∈ ids, s.now.session.conn.now.channelAlive id = true := by
  have halive : ∀ {ids c}, Connection.roundRobinIds s.now.session.conn = .ok ids c →
      ∀ id ∈ ids, s.now.session.conn.now.channelAlive id = true :=
    fun hrun id hid => channelAlive_of_mem h ((roundRobinIds_ok hrun id).mp hid)
  have hrun : ∃ ids c, Connection.roundRobinIds s.now.session.conn = .ok ids c ∧
      (c = s.now.session.conn ∨ c = ⟨{ s.now.session.conn.now with
        rr := s.now.session.conn.now.rr + 1 }, s.now.session.conn.log⟩) := by
    unfold Connection.roundRobinIds
    rw [Proc.bind_of_ok (Traced.read_apply _)]
    dsimp only
    rw [Proc.ite_apply]
    split
    · exact ⟨_, _, rfl, .inl rfl⟩
    · rename_i hids
      have hpos := List.length_pos_iff.mpr hids
      have hle := Nat.le_of_lt (Nat.mod_lt s.now.session.conn.now.rr.toNat hpos)
      rw [Proc.bind_of_ok (Traced.update_apply _ _), Proc.bind_of_ok (Proc.splitAt_of_le hle _)]
      exact ⟨_, _, rfl, .inr rfl⟩
  obtain ⟨ids, c, hrun, rfl | rfl⟩ := hrun
  · exact ⟨ids, idles_onConn h hrun rfl h.balanced h.events h.closed h.unsent, halive hrun⟩
  · exact ⟨ids, idles_onConn h hrun rfl (h.balanced.congr rfl) h.events h.closed h.unsent, halive hrun⟩

theorem idles_pollDests (h : Stuck s.now) : Idles pollDests false s := by
  obtain ⟨ids, hids, halive⟩ := idles_roundRobinIds h
  refine hids.bind fun s1 h1 => idles_destLoop ids h1.stuck fun id hid => ?_
  rw [Connection.channelAlive, h1.same.channels]
  exact halive id hid

theorem idles_disconnect (h : Stuck s.now) (reason : UInt32) (msg : String) :
    Idles (onConn (Connection.disconnect reason msg)) () s := by
  refine idles_onConn h ?_ rfl h.balanced h.events h.closed h.unsent
  rw [Connection.disconnect, Proc.bind_of_ok (Traced.read_apply _), h.closed]
  rfl

/-- The read at the end of the SSH socket: it reports progress. -/
theorem pollSshRead_atEnd (h : Stuck s.now) {rest : List PollRead}
    (hreads : s.now.world.sshReads = .ready [] :: rest) :
    ∃ s', pollSshRead s = .ok true s' ∧ Idled s s' ∧ s'.now.world.sshReads = rest := by
  have hm := h.mute
  have hask : askSshRead s = .ok (.ready []) ⟨{ s.now with
      world := { s.now.world with sshReads := rest } }, s.log⟩ := by
    have hstep : askSshRead s = .ok (s.now.world.sshReads.headD .pending) ⟨{ s.now with
        world := { s.now.world with sshReads := s.now.world.sshReads.tail } }, s.log⟩ := rfl
    rw [hstep, hreads]
    rfl
  generalize hs1 : (⟨{ s.now with world := { s.now.world with sshReads := rest } }, s.log⟩ : Host)
    = s1 at hask
  have h1 : Idled s s1 := by
    subst hs1
    exact ⟨⟨h.table, h.sound, h.balanced, h.events, h.closed, h.unsent, h.idle, ⟨hm.sshWrites,
      hm.clock, hm.connects, hm.destWrites, hm.destReads⟩⟩, .refl _, [], (List.append_nil _).symm,
      fun _ ho => absurd ho List.not_mem_nil⟩
  have hreads1 : s1.now.world.sshReads = rest := by
    subst hs1
    rfl
  have hclose : Idles (do onConn (Connection.disconnect 11 "connection lost"); return true) true s1 :=
    (idles_disconnect h1.stuck 11 "connection lost").bind fun _ h2 => idles_pure h2.stuck true
  obtain ⟨s2, h2, hi2, hr2⟩ := hclose
  exact ⟨s2, (Proc.bind_of_ok hask).trans h2, h1.trans hi2, hr2.trans hreads1⟩

/-- The loop goes round again, and nothing happens. -/
theorem turn_stuck (h : Stuck s.now) {rest : List PollRead}
    (hreads : s.now.world.sshReads = .ready [] :: rest) :
    ∃ s', turn s = .ok .again s' ∧ Idled s s' ∧ s'.now.world.sshReads = rest := by
  obtain ⟨s1, h1, hi1, hr1⟩ := idles_pollSshWrite h
  obtain ⟨s2, h2, hi2, hr2⟩ := pollSshRead_atEnd hi1.stuck (hr1.trans hreads)
  unfold turn
  rw [Proc.bind_of_ok h1, Proc.bind_of_ok h2, ← hr2]
  refine Idles.after (hi1.trans hi2) ?_
  refine (idles_pollSshWrite hi2.stuck).bind fun _ h3 => ?_
  refine (idles_handleEvents h3.stuck).bind fun _ h4 => ?_
  refine (idles_pollConnects h4.stuck).bind fun _ h5 => ?_
  refine (idles_pollDests h5.stuck).bind fun _ h6 => ?_
  refine (idles_handleEvents h6.stuck).bind fun _ h7 => ?_
  refine (idles_pollSshWrite h7.stuck).bind fun s8 h8 => idles_read ?_
  have hopen : ¬(s8.now.session.conn.now.closed && !s8.now.session.conn.now.wantsWrite) = true := by
    rw [h8.stuck.closed, h8.stuck.unsent]
    exact Bool.false_ne_true
  dsimp only
  rw [Connection.isFinished, if_neg hopen, if_neg hopen]
  exact idles_pure h8.stuck Turn.again

-- ============================================================================
-- When the loop spins
-- ============================================================================

/-- The connection is closed and has output to get rid of, and no target is due. -/
structure Spins (session : Session) : Prop where
  closed : session.conn.now.closed = true
  unsent : session.conn.now.wantsWrite = true
  idle : ∀ id, ¬Due session id

/-- After the end of the SSH socket come only more reads of its end. -/
def Lasting (w : World) : Prop :=
  w.sshReads.Pairwise fun earlier later => earlier = .ready [] → later = .ready []

/-- The peer has half-closed and does not read; nothing else happens. -/
def halfClosed : World where
  sshWrites := []
  sshReads := [.ready [], .ready []]
  clock _ := []
  connects _ := []
  destWrites _ := []
  destReads _ := []
  order ds := ⟨ds, .refl ds⟩

theorem Spins.stuck {cfg : ServerConfig} {session : Session} (h : Spins session)
    (hready : Ready cfg session) : Stuck ⟨session, halfClosed⟩ where
  table := hready.reaches.wellFormed.table
  sound := hready.reaches.sound
  balanced := hready.reaches.balanced
  events := hready.events
  closed := h.closed
  unsent := h.unsent
  idle := h.idle
  mute := ⟨rfl, fun _ => rfl, fun _ => rfl, fun _ => rfl, fun _ => rfl⟩

omit [CryptoLib] in
theorem lasting_halfClosed : Lasting halfClosed := by simp [Lasting, halfClosed]

/-- An iteration that asks for another one has changed something, unless it read
    the end of the SSH socket in a session that spins.  In such a session there
    is a world in which it has not. -/
theorem turn_progress {cfg : ServerConfig} {session : Session} (h : AtLoop cfg session) :
    (∀ w log s', turn ⟨⟨session, w⟩, log⟩ = .ok .again s' →
      Did ⟨⟨session, w⟩, log⟩ s' ∨ (Spins session ∧ AtEnd w)) ∧
    ((∀ w log s', Lasting w → turn ⟨⟨session, w⟩, log⟩ = .ok .again s' →
      Did ⟨⟨session, w⟩, log⟩ s') ↔ ¬Spins session) := by
  have hready := h.ready
  have hdid : ∀ w log s', turn ⟨⟨session, w⟩, log⟩ = .ok .again s' →
      Did ⟨⟨session, w⟩, log⟩ s' ∨ (Spins session ∧ AtEnd w) := by
    intro w log s' hturn
    rcases did_turn hready.reaches.wellFormed hready.reaches.sound hturn with hd | ⟨hclosed, hatEnd, hidle⟩
    · exact .inl hd
    · exact .inr ⟨⟨hclosed, hready.unsent hclosed, hidle⟩, hatEnd⟩
  refine ⟨hdid, fun hall hspins => ?_, fun hno w log s' _ hturn => ?_⟩
  · obtain ⟨s', hturn, hidle, -⟩ := turn_stuck (s := ⟨⟨session, halfClosed⟩, []⟩)
      (hspins.stuck hready) rfl
    exact hidle.not_did (hall _ _ s' lasting_halfClosed hturn)
  · exact (hdid w log s' hturn).resolve_right fun hspins => hno hspins.1

/-- The iteration asks for another one, in a session that passes `f`. -/
def goesOn (f : Session → Bool) : Outcome Host SessionError Turn → Bool
  | .ok .again s => f s.now.session
  | _ => false

omit [CryptoLib] in
theorem exists_of_goesOn {f : Session → Bool} {o : Outcome Host SessionError Turn}
    (h : goesOn f o = true) : ∃ s, o = .ok .again s ∧ f s.now.session = true := by
  unfold goesOn at h
  split at h
  · rename_i s
    exact ⟨s, rfl, h⟩
  · cases h

/-- The SSH socket has `reads` to offer and takes nothing; every target connects
    at once and sends one byte. -/
def targetSends (reads : List PollRead) : World where
  sshWrites := []
  sshReads := reads
  clock _ := []
  connects _ := [.ready]
  destWrites _ := []
  destReads _ := [.ready [97]]
  order ds := ⟨ds, .refl ds⟩

/-- A login, and a channel to a target. -/
def opensTarget : Bytes :=
  Toy.identLine ++ Toy.clearPacket Msg.userauthSuccess
    ++ Toy.clearPacket (Msg.channelOpen 0 1000 1000 "h" 80)

omit [CryptoLib] in
/-- The first iteration logs in, opens a channel and connects its target; the
    next one takes a byte from the target. -/
theorem turn_progress_target : ∃ session s', @AtLoop Toy.lib Toy.server session ∧
    session.conn.now.channelAlive 0 = true ∧ session.dests.get? 0 = some (.up false false) ∧
    @turn Toy.lib ⟨⟨session, targetSends []⟩, []⟩ = .ok .again s' ∧
    Did ⟨⟨session, targetSends []⟩, []⟩ s' := by
  have hpass : (@Setup.run Toy.lib (.server Toy.server) Toy.rng []).passes (fun conn =>
      goesOn (fun session => (!session.conn.now.closed && session.conn.now.channelAlive 0 &&
          decide (session.dests.get? 0 = some (.up false false))) &&
          goesOn (fun _ => true) (@turn Toy.lib ⟨⟨session, targetSends []⟩, []⟩))
        (@turn Toy.lib ⟨⟨⟨conn, [], Toy.server.maxPacket, 30⟩,
          targetSends [.ready opensTarget]⟩, []⟩)) = true := by
    decide +kernel
  obtain ⟨_, conn, hrun, hone⟩ := Outcome.exists_of_passes hpass
  obtain ⟨s1, hturn, hs1⟩ := exists_of_goesOn hone
  rw [Bool.and_eq_true, Bool.and_eq_true, Bool.and_eq_true] at hs1
  obtain ⟨⟨⟨hopen, halive⟩, hdest⟩, htwo⟩ := hs1
  obtain ⟨s2, hturn2, -⟩ := exists_of_goesOn htwo
  have hat : @AtLoop Toy.lib Toy.server s1.now.session :=
    @AtLoop.next Toy.lib _ _ _ _ _ _ (@AtLoop.new Toy.lib _ _ _ 30 hrun) hturn nofun
  refine ⟨s1.now.session, s2, hat, halive, of_decide_eq_true hdest, hturn2, ?_⟩
  refine ((@turn_progress Toy.lib _ _ hat).1 _ _ _ hturn2).resolve_right ?_
  rintro ⟨hspins, -⟩
  have hclosed : s1.now.session.conn.now.closed = true := hspins.closed
  rw [hclosed] at hopen
  cases hopen

omit [CryptoLib] in
/-- The first iteration closes the connection; the next one changes nothing, and
    asks for another one. -/
theorem halfClosed_spins : ∃ session s', @AtLoop Toy.lib Toy.server session ∧ Lasting halfClosed ∧
    @turn Toy.lib ⟨⟨session, halfClosed⟩, []⟩ = .ok .again s' ∧
    ¬Did ⟨⟨session, halfClosed⟩, []⟩ s' ∧ Alike session s'.now.session := by
  have hpass : (@Setup.run Toy.lib (.server Toy.server) Toy.rng []).passes (fun conn =>
      goesOn (fun session => session.conn.now.closed && session.conn.now.wantsWrite
          && session.conn.now.channels.slots.isEmpty)
        (@turn Toy.lib ⟨⟨⟨conn, [], Toy.server.maxPacket, 30⟩, halfClosed⟩, []⟩)) = true := by
    decide +kernel
  obtain ⟨_, conn, hrun, hone⟩ := Outcome.exists_of_passes hpass
  obtain ⟨s', hturn, hone⟩ := exists_of_goesOn hone
  have hat : @AtLoop Toy.lib Toy.server s'.now.session :=
    @AtLoop.next Toy.lib _ _ _ _ _ _ (@AtLoop.new Toy.lib _ _ _ 30 hrun) hturn nofun
  rw [Bool.and_eq_true, Bool.and_eq_true] at hone
  obtain ⟨⟨hclosed, hunsent⟩, hslots⟩ := hone
  have hspins : Spins s'.now.session := by
    refine ⟨hclosed, hunsent, fun id hdue => ?_⟩
    have halive := hdue.alive
    rw [Connection.channelAlive, ChannelTable.get?, List.isEmpty_iff.mp hslots] at halive
    cases halive
  obtain ⟨s2, hturn2, hidle, -⟩ := @turn_stuck Toy.lib ⟨⟨s'.now.session, halfClosed⟩, []⟩
    (@Spins.stuck Toy.lib _ _ hspins (@AtLoop.ready Toy.lib _ _ hat)) _ rfl
  exact ⟨s'.now.session, s2, hat, lasting_halfClosed, hturn2, hidle.not_did, hidle.same⟩

end Session

end Ssproxy
