/-
  Ssproxy.Refine.Run

  Whole runs.  `process_in` and every other call make moves, so the state after
  a run is reached from the state of the constructor by moves: what holds in
  every state that moves reach holds after every run.
-/

import Ssproxy.Refine.Input
import Mathlib.Data.List.Induction

namespace Ssproxy

open Lib Wire Connection Relation

variable [CryptoLib]

variable {c c' c1 : Conn}

namespace Connection

-- ============================================================================
-- process_in
-- ============================================================================

/-- `try_ident` finishes the line, waits for more of it, or fails. -/
theorem tryIdent_sat (c : Conn) (hid : c.now.identInDone = false) :
    (tryIdent c).Sat (fun _ c' => Quiet c c') (fun _ c' => Faults c c') := by
  have hgather : (if c.now.readBuf = [] then c.now else
      { c.now with identAcc := c.now.identAcc ++ c.now.readBuf, readBuf := [] })
      = { c.now with identAcc := c.now.identAcc ++ c.now.readBuf, readBuf := [] } := by
    split
    · rename_i h
      rw [h, List.append_nil]
      exact congrArg (fun b => { c.now with readBuf := b }) h
    · rfl
  unfold tryIdent
  rw [Proc.bind_of_ok (Traced.update_apply _ c), hgather, Proc.bind_of_ok (Traced.read_apply _)]
  dsimp only
  cases hpos : (c.now.identAcc ++ c.now.readBuf).findIdx? (· == 10) with
  | none =>
    dsimp only
    rw [Proc.failIf_apply]
    split
    · exact Faults.identBad hid
    · exact Quiet.identWait hid hpos
  | some pos =>
    have hlt : pos < (c.now.identAcc ++ c.now.readBuf).length :=
      (List.findIdx?_eq_some_iff_findIdx_eq.mp hpos).1
    dsimp only
    rw [Proc.bind_apply, Proc.failIf_apply]
    split
    · exact Faults.identBad hid
    rename_i hshort
    rw [Outcome.bind_ok, Proc.bind_of_ok (Proc.splitAt_of_le hlt _),
      Proc.bind_of_ok (Traced.update_apply _ _)]
    dsimp only
    cases hs : fromUtf8 (popIf 13 (popIf 10
        ((c.now.identAcc ++ c.now.readBuf).take (pos + 1)))) with
    | none => exact Faults.identBad hid
    | some s =>
      rw [Proc.bind_of_ok (Proc.okOr_some _ _ _), Proc.bind_apply, Proc.failIf_apply]
      split
      · exact Faults.identBad hid
      rw [Outcome.bind_ok, Proc.bind_of_ok (Traced.update_apply _ _), Traced.update_apply]
      have hline : IdentLine (c.now.identAcc ++ c.now.readBuf) s
          ((c.now.identAcc ++ c.now.readBuf).drop (pos + 1)) :=
        ⟨pos, hpos, Nat.le_of_not_lt hshort, hs, rfl⟩
      have hdone := Quiet.identDone hid hline
      dsimp only
      split
      · rename_i hnil
        rw [hnil] at hdone
        rw [hnil]
        exact hdone
      · exact hdone

omit [CryptoLib] in
/-- `try_ident` works on the ident line and the buffers of the read side. -/
theorem tryIdent_frame (c : Conn) :
    (tryIdent c).Sat
      (fun _ c' => ∃ acc buf peer done, c' = ⟨{ c.now with
        identAcc := acc, readBuf := buf, identPeer := peer, identInDone := done }, c.log⟩)
      (fun _ c' => ∃ acc buf peer done, c' = ⟨{ c.now with
        identAcc := acc, readBuf := buf, identPeer := peer, identInDone := done }, c.log⟩) := by
  have hgather : ∃ acc buf, (if c.now.readBuf = [] then c.now else
      { c.now with identAcc := c.now.identAcc ++ c.now.readBuf, readBuf := [] })
      = { c.now with identAcc := acc, readBuf := buf } := by
    split
    · exact ⟨_, _, rfl⟩
    · exact ⟨_, _, rfl⟩
  obtain ⟨acc, buf, hgather⟩ := hgather
  unfold tryIdent
  rw [Proc.bind_of_ok (Traced.update_apply _ c), hgather, Proc.bind_of_ok (Traced.read_apply _)]
  dsimp only
  cases hpos : acc.findIdx? (· == 10) with
  | none =>
    dsimp only
    rw [Proc.failIf_apply]
    split
    · exact ⟨_, _, _, _, rfl⟩
    · exact ⟨_, _, _, _, rfl⟩
  | some pos =>
    have hlt : pos < acc.length := (List.findIdx?_eq_some_iff_findIdx_eq.mp hpos).1
    dsimp only
    rw [Proc.bind_apply, Proc.failIf_apply]
    split
    · exact ⟨_, _, _, _, rfl⟩
    rw [Outcome.bind_ok, Proc.bind_of_ok (Proc.splitAt_of_le hlt _),
      Proc.bind_of_ok (Traced.update_apply _ _)]
    dsimp only
    cases fromUtf8 (popIf 13 (popIf 10 (acc.take (pos + 1)))) with
    | none => exact ⟨_, _, _, _, rfl⟩
    | some s =>
      rw [Proc.bind_of_ok (Proc.okOr_some _ _ _), Proc.bind_apply, Proc.failIf_apply]
      split
      · exact ⟨_, _, _, _, rfl⟩
      rw [Outcome.bind_ok, Proc.bind_of_ok (Traced.update_apply _ _), Traced.update_apply]
      dsimp only
      split
      · exact ⟨_, _, _, _, rfl⟩
      · exact ⟨_, _, _, _, rfl⟩

/-- A round of the packet loop, `c` being the state before the first one. -/
theorem packets_round (h1 : Turns c c1) (hready : Ready c1) :
    (tryOnePacket c1).Sat (fun _ c2 => Turns c c2 ∧ Ready c2) (fun _ c2 => Breaks c c2) := by
  refine (tryOnePacket_sat c1 hready.wellFormed hready.ident).mono ?_ ?_
  · rintro again c2 (⟨-, rfl⟩ | ⟨-, p, hp⟩)
    · exact ⟨h1, hready⟩
    · exact ⟨h1.trans hp.turns, hready.handled hp⟩
  · rintro e c2 (rfl | hf)
    · exact Turns.breaks h1
    · exact Turns.misses h1 hf hready

theorem processPackets_sat (c : Conn) (h : Ready c) :
    (processPackets c).Sat (fun _ c' => Turns c c') (fun _ c' => Breaks c c') := by
  have hround : ∀ c1, Turns c c1 ∧ Ready c1 →
      (tryOnePacket c1).Sat (fun _ c2 => Turns c c2 ∧ Ready c2) (fun _ c2 => Breaks c c2) :=
    fun c1 ⟨h1, hready⟩ => packets_round h1 hready
  unfold processPackets
  rw [Proc.bind_of_ok (Traced.read_apply c)]
  refine (Proc.sat_loop hround _ c ⟨.refl, h⟩).bind fun _ c1 ⟨h1, hready⟩ => ?_
  refine (((maybeRekey_follows c1).mono (R := fun _ c2 => Turns c c2)
    (fun _ _ h => h1.trans (Steps.turns h)) fun _ _ h => Turns.breaks (h1.trans (Steps.turns h)))).bind
      ?_
  intro _ c2 h2
  exact (flushPendingAll_returns c2).mono (fun _ _ h => h2.trans (Steps.turns h)) fun _ _ h => h.elim

theorem processIn_sat (c : Conn) (hwf : WellFormed c) :
    (processIn c).Sat (fun _ c' => Turns c c') (fun _ c' => Breaks c c') := by
  unfold processIn
  rw [Proc.bind_of_ok (Traced.read_apply c), Proc.ite_apply]
  split
  · rename_i hid
    have hid : c.now.identInDone = false := by simpa using hid
    refine ((tryIdent_sat c hid).mono (fun _ _ h => h) fun _ _ h => .mk .refl (.inr h) .refl).bind ?_
    intro _ c1 h1
    have hwf1 := h1.wellFormed hwf
    have hturn : Turns c c1 := .single (.quiet h1)
    rw [Proc.bind_of_ok (Traced.read_apply c1), Proc.ite_apply]
    split
    · rename_i hid1
      refine ((maybeStartKex_follows c1 hwf1).mono (fun _ _ h => h) fun _ _ h =>
        Turns.breaks (hturn.trans (Steps.turns h))).bind fun _ c2 h2 => ?_
      have hready : Ready c2 := by
        refine ⟨(Steps.trail h2).wellFormed hwf1, ?_⟩
        have hid2 : c2.now.identInDone = c1.now.identInDone :=
          congrArg Ident.done (Steps.trail h2).extends.ident
        rw [hid2]
        exact hid1
      have hturns : Turns c c2 := hturn.trans (Steps.turns h2)
      exact (processPackets_sat c2 hready).mono (fun _ _ h => hturns.trans h)
        fun _ _ h => h.after hturns
    · exact hturn
  · rename_i hid
    have hid : c.now.identInDone = true := by simpa using hid
    exact processPackets_sat c ⟨hwf, hid⟩

end Connection

-- ============================================================================
-- Calls and runs
-- ============================================================================

/-- The causes of the steps a call makes. -/
theorem Called.trail {call : Call} (h : Called call c c') :
    Trail (fun k => k.Inner ∨ k = .call call) c c' := by
  have hinner : ∀ {a b}, Trail Cause.Inner a b → Trail (fun k => k.Inner ∨ k = .call call) a b :=
    fun h => ReflTransGen.mono (fun _ _ ⟨k, hk, hs⟩ => ⟨k, .inl hk, hs⟩) _ _ h
  cases h with
  | own h hs => exact (ReflTransGen.single ⟨_, .inr rfl, h⟩).trans (hinner hs.trail)
  | consume hcall h ha => exact (ReflTransGen.single ⟨_, .inr rfl, h⟩).trans (hinner ha.trail)
  | other hs => exact hinner hs.trail

/-- Calls other than `process_in` and the arrival of bytes. -/
theorem Call.run_called (call : Call) (c : Conn) (hwf : WellFormed c) (hcall : call ≠ .processIn)
    (hrecv : ∀ bytes, call ≠ .recv bytes) : Proc.Follows (Called call) call.run c := by
  have hdrop : ∀ {α : Type} {m : ConnM α}, Proc.Follows (Called call) m c →
      Proc.Follows (Called call) (do let _ ← m) c :=
    fun h => Outcome.Sat.bind h fun _ _ h' => h'
  cases call with
  | recv bytes => exact absurd rfl (hrecv bytes)
  | processIn => exact absurd rfl hcall
  | peekOut => exact hdrop (.other (peekOut_follows c))
  | consumeOut n => exact consumeOut_follows n c hwf
  | popEvent => exact (Step.popEvent c).called
  | consumeInbound id n => exact consumeInbound_follows id n c
  | sendData id data => exact sendDataNoted_follows id data c
  | sendEof id => exact sendEof_follows id c
  | sendClose id =>
    exact (follows_steps (sendClose_follows id c)).mono (fun _ _ h => .other h) fun _ _ h => .other h
  | confirmOpen id => exact confirmOpen_follows id c
  | failOpen id reason msg => exact failOpen_follows id reason msg c
  | openDirectTcpip host port => exact hdrop (openDirectTcpip_follows host port c hwf)
  | disconnect reason msg =>
    exact (disconnect_sat reason msg c).mono (fun _ _ h => .other (.single (.hangUp h)))
      fun _ _ h => h.elim
  | roundRobinIds => exact hdrop (roundRobinIds_follows c)

theorem Turns.wellFormed (h : Turns c c') (hwf : WellFormed c) : WellFormed c' :=
  Moves.wellFormed (calms_moves (Turns.calms h)) hwf

theorem Turns.log (h : Turns c c') : c.log <+: c'.log := Moves.log (calms_moves (Turns.calms h))

/-- What every turn keeps, `process_in` keeps unless it fails. -/
theorem Turns.invariant {I : Conn → Prop} {G : Obs → Prop}
    (hturn : ∀ c c', WellFormed c → I c → Turn c c' → (∀ o ∈ c'.log, G o) → I c')
    (h : Turns c c') (hwf : WellFormed c) (hI : I c) (hG : ∀ o ∈ c'.log, G o) : I c' := by
  induction h with
  | refl => exact hI
  | tail hpre hlast ih =>
    have hlog := Turns.log (.single hlast)
    exact hturn _ _ (Turns.wellFormed hpre hwf) (ih fun o ho => hG o (hlog.subset ho)) hlast hG

/-- A call other than `process_in` makes no faults. -/
theorem Call.run_calm (call : Call) (c : Conn) (hwf : WellFormed c) (hcall : call ≠ .processIn) :
    Proc.Follows (ReflTransGen Calm) call.run c := by
  by_cases hrecv : ∃ bytes, call = .recv bytes
  · obtain ⟨bytes, rfl⟩ := hrecv
    exact .single (Calm.recv c bytes)
  · have hcalled := call.run_called c hwf hcall fun bytes h => hrecv ⟨bytes, h⟩
    exact hcalled.mono (fun _ _ h => h.trail.calms) fun _ _ h => h.trail.calms

theorem Call.run_follows (call : Call) (c : Conn) (hwf : WellFormed c) :
    Proc.Follows Moves call.run c := by
  by_cases hcall : call = .processIn
  · subst hcall
    exact (processIn_sat c hwf).mono (fun _ _ h => calms_moves (Turns.calms h)) fun _ _ h => h.moves
  · exact (call.run_calm c hwf hcall).mono (fun _ _ h => calms_moves h) fun _ _ h => calms_moves h

theorem runCalls_follows (calls : List Call) (c : Conn) (hwf : WellFormed c) :
    Proc.Returns Moves (runCalls calls) c := by
  induction calls generalizing c with
  | nil => exact .refl
  | cons call calls ih =>
    refine Outcome.Sat.bind (R := fun _ c1 => Moves c c1) (call.run_follows c hwf).ignore ?_
    intro _ c1 h1
    exact (ih c1 (Moves.wellFormed h1 hwf)).mono (fun _ _ h => h1.trans h) fun _ _ h => h

namespace Setup

omit [CryptoLib] in
theorem blank_wellFormed (setup : Setup) (rng : Rng) : WellFormed ⟨setup.blank rng, []⟩ := by
  cases setup with
  | server cfg =>
    refine ⟨⟨?_, ?_, ?_, rfl, ?_, ?_, ?_, ?_, ?_, ?_, ?_⟩, TableOk.new _⟩
    all_goals simp [blank, Connection.new, Connection.control]
  | client cfg =>
    refine ⟨⟨?_, ?_, ?_, rfl, ?_, ?_, ?_, ?_, ?_, ?_, ?_⟩, TableOk.new _⟩
    all_goals simp [blank, Connection.new, Connection.control]

omit [CryptoLib] in
theorem blank_kex (setup : Setup) (rng : Rng) : (setup.blank rng).kex = none := by
  cases setup <;> rfl

theorem starts_wellFormed (setup : Setup) {rng : Rng} {c : Conn}
    (h : Starts ⟨setup.blank rng, []⟩ c) : WellFormed c := by
  have hwf := setup.blank_wellFormed rng
  refine ⟨h.kexOk (setup.blank_kex rng) hwf.kex, ?_⟩
  rw [h.channels]
  exact hwf.table

/-- The constructor starts a key exchange; every later state is reached from
    there by moves.  In particular no run panics. -/
theorem run_sat (setup : Setup) (rng : Rng) (calls : List Call) :
    (setup.run rng calls).Sat
      (fun _ c => ∃ c0, Starts ⟨setup.blank rng, []⟩ c0 ∧ Moves c0 c) (fun _ _ => False) := by
  unfold run
  refine Outcome.Sat.bind (R := fun _ c0 => Starts ⟨setup.blank rng, []⟩ c0)
    (Proc.sat_ignore ((startKex_sat _).mono (fun _ _ h => h) fun _ _ h => h.elim)) ?_
  intro _ c0 h0
  exact (runCalls_follows calls c0 (setup.starts_wellFormed h0)).mono (fun _ _ h => ⟨c0, h0, h⟩)
    fun _ _ h => h

/-- A connection made from `setup` can be in state `c`, between two calls or
    right after a packet was taken inside `process_in`. -/
def Reaches (setup : Setup) (c : Conn) : Prop :=
  ∃ rng c0, Starts ⟨setup.blank rng, []⟩ c0 ∧ Moves c0 c

theorem Reaches.of_run {setup : Setup} {rng : Rng} {calls : List Call} {c : Conn}
    (h : setup.run rng calls = .ok () c) : setup.Reaches c := by
  obtain ⟨c0, h0, hmoves⟩ := (setup.run_sat rng calls).of_ok h
  exact ⟨rng, c0, h0, hmoves⟩

theorem Reaches.wellFormed {setup : Setup} {c : Conn} (h : setup.Reaches c) : WellFormed c := by
  obtain ⟨rng, c0, h0, hmoves⟩ := h
  exact Moves.wellFormed hmoves (setup.starts_wellFormed h0)

theorem Reaches.role {setup : Setup} {c : Conn} (h : setup.Reaches c) :
    c.now.role = setup.role := by
  obtain ⟨rng, c0, h0, hmoves⟩ := h
  have hblank : (setup.blank rng).role = setup.role := by
    cases setup <;> rfl
  have h1 : c.now.role = c0.now.role := congrArg (·.role) (Moves.settings hmoves)
  have h2 : c0.now.role = (setup.blank rng).role := congrArg (·.role) h0.extends.settings
  rw [h1, h2, hblank]

/-- The rule for whole runs: `I` holds after the constructor and is kept by
    every move, as long as the history stays within `G`. -/
theorem run_invariant {setup : Setup} {rng : Rng} {calls : List Call} {c : Conn}
    {I : Conn → Prop} {G : Obs → Prop}
    (h0 : ∀ c0, Starts ⟨setup.blank rng, []⟩ c0 → I c0)
    (hstep : ∀ c c', WellFormed c → I c → Move c c' → (∀ o ∈ c'.log, G o) → I c')
    (hrun : setup.run rng calls = .ok () c) (hG : ∀ o ∈ c.log, G o) : I c := by
  obtain ⟨c0, hc0, hmoves⟩ := (setup.run_sat rng calls).of_ok hrun
  exact Moves.invariant hstep hmoves (setup.starts_wellFormed hc0) (h0 c0 hc0) hG

-- ============================================================================
-- Runs, call by call
-- ============================================================================

/-- The constructor starts a key exchange, and the calls go on from there. -/
theorem run_start (setup : Setup) (rng : Rng) : ∃ c0, Starts ⟨setup.blank rng, []⟩ c0 ∧
    ∀ calls, setup.run rng calls = runCalls calls c0 := by
  have hstart := startKex_sat ⟨setup.blank rng, []⟩
  cases hs : startKex ⟨setup.blank rng, []⟩ with
  | panic => exact absurd hs hstart.ne_panic
  | err e c0 => exact (hstart.of_err hs).elim
  | ok a c0 =>
    have hok : Proc.ignore startKex ⟨setup.blank rng, []⟩ = .ok () c0 := by
      rw [Proc.ignore, hs]
    exact ⟨c0, hstart.of_ok hs, fun calls => Proc.bind_of_ok hok⟩

/-- The last call of a run. -/
theorem run_snoc {setup : Setup} {rng : Rng} {calls : List Call} {call : Call} {c' : Conn}
    (h : setup.run rng (calls ++ [call]) = .ok () c') :
    ∃ c, setup.run rng calls = .ok () c ∧ (call.run c).state? = some c' := by
  obtain ⟨c0, -, hstart⟩ := setup.run_start rng
  rw [hstart] at h
  obtain ⟨c, hpre, hlast⟩ := Proc.forEach_append h
  refine ⟨c, (hstart calls).trans hpre, ?_⟩
  rw [Proc.forEach, Proc.bind_apply, Proc.ignore] at hlast
  cases hc : call.run c with
  | ok a c1 =>
    rw [hc] at hlast
    cases hlast
    rfl
  | err e c1 =>
    rw [hc] at hlast
    cases hlast
    rfl
  | panic =>
    rw [hc] at hlast
    cases hlast

/-- A run that goes on from another one. -/
theorem run_append {setup : Setup} {rng : Rng} {calls more : List Call} {c c' : Conn}
    (h : setup.run rng calls = .ok () c) (h' : setup.run rng (calls ++ more) = .ok () c') :
    Moves c c' := by
  obtain ⟨c0, hstarts, hstart⟩ := setup.run_start rng
  rw [hstart] at h h'
  obtain ⟨c1, hpre, hlast⟩ := Proc.forEach_append h'
  cases h.symm.trans hpre
  have hwf : WellFormed c := Moves.wellFormed ((runCalls_follows calls c0
    (setup.starts_wellFormed hstarts)).of_ok h) (setup.starts_wellFormed hstarts)
  exact (runCalls_follows more c hwf).of_ok hlast

/-- The rule for runs, call by call: `I` holds after the constructor, and every
    call keeps it from the state that the calls before it led to. -/
theorem run_calls {setup : Setup} {rng : Rng} {calls : List Call} {c : Conn}
    {I : Conn → Prop} {G : Obs → Prop}
    (h0 : ∀ c0, Starts ⟨setup.blank rng, []⟩ c0 → I c0)
    (hcall : ∀ pre call post c1 c2, calls = pre ++ call :: post → setup.run rng pre = .ok () c1 →
      WellFormed c1 → I c1 → (call.run c1).state? = some c2 → (∀ o ∈ c2.log, G o) → I c2)
    (hrun : setup.run rng calls = .ok () c) (hG : ∀ o ∈ c.log, G o) : I c := by
  suffices h : ∀ pre post c, calls = pre ++ post → setup.run rng pre = .ok () c →
      (∀ o ∈ c.log, G o) → I c from h calls [] c (List.append_nil _).symm hrun hG
  intro pre
  induction pre using List.reverseRecOn with
  | nil =>
    intro post c _ hrun _
    obtain ⟨c0, hc0, hstart⟩ := setup.run_start rng
    cases (hstart []).symm.trans hrun
    exact h0 _ hc0
  | append_singleton pre call ih =>
    intro post c2 hcalls hrun hG
    obtain ⟨c1, hpre, hlast⟩ := run_snoc hrun
    have hwf : WellFormed c1 := (Reaches.of_run hpre).wellFormed
    have hlog : c1.log <+: c2.log := by
      have hmoves := call.run_follows c1 hwf
      cases hc : call.run c1 with
      | ok a c3 =>
        rw [hc] at hlast
        cases hlast
        exact Moves.log (hmoves.of_ok hc)
      | err e c3 =>
        rw [hc] at hlast
        cases hlast
        exact Moves.log (hmoves.of_err hc)
      | panic => exact absurd hc hmoves.ne_panic
    rw [List.append_assoc] at hcalls
    have hI := ih (call :: post) c1 hcalls hpre fun o ho => hG o (hlog.subset ho)
    exact hcall pre call post c1 c2 hcalls hpre hwf hI hlast hG

/-- The rule for runs, turn by turn.  `I` holds after the constructor; it is kept
    by the turns and faults of `process_in`, by the arrival of bytes, and by
    every other call from the state that the calls before it led to. -/
theorem run_turns {setup : Setup} {rng : Rng} {calls : List Call} {c : Conn}
    {I : Conn → Prop} {G : Obs → Prop}
    (h0 : ∀ c0, Starts ⟨setup.blank rng, []⟩ c0 → I c0)
    (hturn : ∀ c c', WellFormed c → I c → Turn c c' → (∀ o ∈ c'.log, G o) → I c')
    (hfault : ∀ c c', WellFormed c → I c → Faults c c' → (∀ o ∈ c'.log, G o) → I c')
    (hrecv : ∀ c bytes, I c → I ⟨{ c.now with readBuf := c.now.readBuf ++ bytes }, c.log⟩)
    (hcalled : ∀ pre call post c1 c2, calls = pre ++ call :: post →
      setup.run rng pre = .ok () c1 → WellFormed c1 → I c1 → Called call c1 c2 →
      (∀ o ∈ c2.log, G o) → I c2)
    (hrun : setup.run rng calls = .ok () c) (hG : ∀ o ∈ c.log, G o) : I c := by
  have hturns : ∀ c c', Turns c c' → WellFormed c → I c → (∀ o ∈ c'.log, G o) → I c' := by
    intro c c' ht hwf hI hG
    exact (Turns.invariant (fun c c' hwf h ht hG => hturn c c' hwf h ht hG) ht hwf hI hG)
  refine run_calls h0 ?_ hrun hG
  intro pre call post c1 c2 hcalls hpre hwf hI hend hG
  by_cases hin : call = .processIn
  · subst hin
    have hsat := processIn_sat c1 hwf
    rcases Outcome.state?_eq_some hend with ⟨a, hok⟩ | ⟨e, herr⟩
    · exact hturns c1 c2 (hsat.of_ok hok) hwf hI hG
    · cases hsat.of_err herr with
      | @mk c3 c4 ht hf hs =>
        have hwf3 := Turns.wellFormed ht hwf
        have hlog : c4.log <+: c2.log := Moves.log (calms_moves (Trail.calms (Steps.trail hs)))
        rcases hf with rfl | hf
        · exact hturns c1 c2 (ht.trans (Steps.turns hs)) hwf hI hG
        · have hG4 : ∀ o ∈ c4.log, G o := fun o ho => hG o (hlog.subset ho)
          have hG3 : ∀ o ∈ c3.log, G o := fun o ho =>
            hG4 o ((Moves.log (.single (Move.fault hf))).subset ho)
          have hI4 := hfault c3 c4 hwf3 (hturns c1 c3 ht hwf hI hG3) hf hG4
          exact hturns c4 c2 (Steps.turns hs) (hf.wellFormed hwf3) hI4 hG
  by_cases hbytes : ∃ bytes, call = .recv bytes
  · obtain ⟨bytes, rfl⟩ := hbytes
    cases hend
    exact hrecv c1 bytes hI
  have hsat := call.run_called c1 hwf hin fun bytes hb => hbytes ⟨bytes, hb⟩
  rcases Outcome.state?_eq_some hend with ⟨a, hok⟩ | ⟨e, herr⟩
  · exact hcalled pre call post c1 c2 hcalls hpre hwf hI (hsat.of_ok hok) hG
  · exact hcalled pre call post c1 c2 hcalls hpre hwf hI (hsat.of_err herr) hG

end Setup

end Ssproxy
