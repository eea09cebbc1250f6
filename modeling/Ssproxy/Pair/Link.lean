/-
  Ssproxy.Pair.Link

  A server and a client of this program, connected by two streams of bytes.
  Each is called by its application in any order and with anything; what
  `consume_out` hands to the socket is on its way until it reaches the
  `read_buf` of the other end, in pieces of any size.  In every run each end
  opens what the other sealed: the same payloads in the same order, each with
  the key and the sequence number it was sealed with, over any number of key
  exchanges.
-/

import Ssproxy.Pair.Hops

namespace Ssproxy

open Lib Wire Connection Relation

-- ============================================================================
-- The model
-- ============================================================================

/-- Two ends and what is on the way between them. -/
structure Link where
  server : Conn
  client : Conn
  /-- From the server to the client. -/
  down : Bytes
  /-- From the client to the server. -/
  up : Bytes

/-- What happens on a link. -/
inductive Link.Act where
  /-- The application of one end makes a call. -/
  | call (side : Role) (call : Call)
  /-- The next `n` bytes on their way to one end reach its `read_buf`. -/
  | arrive (side : Role) (n : Nat)
  deriving DecidableEq

namespace Link

variable [CryptoLib]

/-- The end after `call`.  There is none if `process_in` failed: the session
    ends there.  Bytes come from the peer only, so `recv` is no call of it. -/
def callEnd (call : Call) (c : Conn) : Option Conn :=
  match call with
  | .recv _ => none
  | .processIn =>
      match Connection.processIn c with
      | .ok _ c' => some c'
      | _ => none
  | call => (call.run c).state?

def act : Act → Link → Option Link
  | .call .server call, l => (callEnd call l.server).map fun c =>
      { l with server := c, down := l.down ++ call.taken l.server.now }
  | .call .client call, l => (callEnd call l.client).map fun c =>
      { l with client := c, up := l.up ++ call.taken l.client.now }
  | .arrive .server n, l =>
      some { l with server := fed (l.up.take n) l.server, up := l.up.drop n }
  | .arrive .client n, l =>
      some { l with client := fed (l.down.take n) l.client, down := l.down.drop n }

/-- Both constructors, and nothing on the way. -/
def start (server : ServerConfig) (client : ClientConfig) (rngS rngC : Rng) : Option Link := do
  let s ← ((Setup.server server).run rngS []).state?
  let c ← ((Setup.client client).run rngC []).state?
  return ⟨s, c, [], []⟩

/-- A run of a link. -/
def run (server : ServerConfig) (client : ClientConfig) (rngS rngC : Rng) (acts : List Act) :
    Option Link := do
  let l ← start server client rngS rngC
  acts.foldlM (fun l a => act a l) l

end Link

-- ============================================================================
-- One end moves
-- ============================================================================

variable [CryptoLib]

variable {s s' c c' : Conn} {down up chunk : Bytes} {fd fu : List Packet}

namespace Coupled

theorem serverHop [CryptoLaws] (h : Coupled s c down up fd fu) (he : Ends s c)
    (hfit : LengthsFit c.log) (hop : Hop s s') : ∃ fd' fu', Coupled s' c down up fd' fu' := by
  cases hop with
  | step hstep hk =>
    rcases hstep.talks hk with ht | ⟨hkex, hs⟩
    · obtain ⟨fd', h'⟩ := h.serverTalks ht
      exact ⟨fd', fu, h'⟩
    · obtain ⟨fd', h'⟩ := h.serverStarts hkex hs
      exact ⟨fd', fu, h'⟩
  | serve hid hh ha => exact h.serverServes he hfit hid hh.serves
  | identWait hid hno =>
    exact ⟨fd, fu, h.joint, h.down.writer rfl rfl rfl rfl, h.up.identWait hid⟩
  | identDone hid hs =>
    exact ⟨fd, fu, h.joint, h.down.writer rfl rfl rfl rfl, h.up.identDone he.clientLine hid hs⟩

theorem clientHop [CryptoLaws] (h : Coupled s c down up fd fu) (he : Ends s c)
    (hfit : LengthsFit s.log) (hop : Hop c c') : ∃ fd' fu', Coupled s c' down up fd' fu' := by
  cases hop with
  | step hstep hk =>
    rcases hstep.talks hk with ht | ⟨hkex, hs⟩
    · obtain ⟨fu', h'⟩ := h.clientTalks ht
      exact ⟨fd, fu', h'⟩
    · obtain ⟨fu', h'⟩ := h.clientStarts hkex hs
      exact ⟨fd, fu', h'⟩
  | serve hid hh ha => exact h.clientServes he hfit hid hh.serves
  | identWait hid hno =>
    exact ⟨fd, fu, h.joint, h.down.identWait hid, h.up.writer rfl rfl rfl rfl⟩
  | identDone hid hs =>
    exact ⟨fd, fu, h.joint, h.down.identDone he.serverLine hid hs, h.up.writer rfl rfl rfl rfl⟩

theorem serverDrains (h : Coupled s c down up fd fu) (hd : Drains chunk s s') :
    Coupled s' c (down ++ chunk) up fd fu := by
  refine ⟨?_, h.down.drain hd.line hd.held (congrArg (·.settings) hd.party) hd.log,
    h.up.reader hd.ident hd.inbound (congrArg openedPackets hd.log)⟩
  rw [hd.party]
  exact h.joint

theorem clientDrains (h : Coupled s c down up fd fu) (hd : Drains chunk c c') :
    Coupled s c' down (up ++ chunk) fd fu := by
  refine ⟨?_, h.down.reader hd.ident hd.inbound (congrArg openedPackets hd.log),
    h.up.drain hd.line hd.held (congrArg (·.settings) hd.party) hd.log⟩
  rw [hd.party]
  exact h.joint

end Coupled

omit [CryptoLib] in
theorem Ends.congr (he : Ends s c) (hs : s'.now.settings = s.now.settings)
    (hc : c'.now.settings = c.now.settings) : Ends s' c' where
  server := (congrArg (·.role) hs).trans he.server
  client := (congrArg (·.role) hc).trans he.client
  serverLine := (congrArg (·.identLocal) hs : s'.now.identLocal = s.now.identLocal) ▸ he.serverLine
  clientLine := (congrArg (·.identLocal) hc : c'.now.identLocal = c.now.identLocal) ▸ he.clientLine

-- ============================================================================
-- Whole runs
-- ============================================================================

/-- The invariant of a link. -/
structure Linked (l : Link) : Prop where
  ends : Ends l.server l.client
  server : WellFormed l.server
  client : WellFormed l.client
  coupled : ∃ fd fu, Coupled l.server l.client l.down l.up fd fu

/-- A call of `process_in` that succeeded, or any other call and its state. -/
theorem Link.callEnd_cases {call : Call} (h : Link.callEnd call c = some c') :
    (call = .processIn ∧ ∃ a, Connection.processIn c = .ok a c') ∨
    (call ≠ .processIn ∧ (∀ bytes, call ≠ .recv bytes) ∧ (call.run c).state? = some c') := by
  by_cases hin : call = .processIn
  · subst hin
    left
    unfold Link.callEnd at h
    dsimp only at h
    split at h
    · rename_i a c1 hok
      cases h
      exact ⟨rfl, a, hok⟩
    · cases h
  · right
    cases call with
    | processIn => exact absurd rfl hin
    | recv bytes => cases h
    | _ => exact ⟨hin, fun _ => Call.noConfusion, h⟩

/-- What a call does to one end, unless the session ends there. -/
theorem Link.callEnd_outputs {call : Call} (hwf : WellFormed c)
    (h : Link.callEnd call c = some c') : Outputs (call.taken c.now) c c' := by
  have hhops : (∀ n, call ≠ .consumeOut n) → Hops c c' → Outputs (call.taken c.now) c c' := by
    intro hout hs
    rw [Call.taken_eq_nil hout]
    exact .mk ⟨rfl, rfl, rfl, rfl, rfl, rfl, .refl⟩ hs
  -- the state after a call that follows `R`
  have hstate : ∀ {R : Conn → Conn → Prop}, Proc.Follows R call.run c →
      (call.run c).state? = some c' → R c c' := by
    intro R hfollows hs
    rcases Outcome.state?_eq_some hs with ⟨a, hok⟩ | ⟨e, herr⟩
    · exact hfollows.of_ok hok
    · exact hfollows.of_err herr
  rcases Link.callEnd_cases h with ⟨rfl, a, hok⟩ | ⟨hin, hrecv, hend⟩
  · exact hhops nofun ((processIn_hops c hwf).of_ok hok)
  by_cases hout : ∃ n, call = .consumeOut n
  · obtain ⟨n, rfl⟩ := hout
    exact hstate (consumeOut_outputs n c hwf) hend
  · have hout : ∀ n, call ≠ .consumeOut n := fun n hn => hout ⟨n, hn⟩
    exact hhops hout (hstate (call.run_hops c hwf hin hrecv hout) hend)

namespace Linked

variable {l l' : Link}

theorem serverHops [CryptoLaws] (h : Linked l) (hfit : LengthsFit l.client.log)
    (hs : Hops l.server s') : Linked { l with server := s' } := by
  induction hs with
  | refl => exact h
  | tail _ hop ih =>
    obtain ⟨fd, fu, hc⟩ := ih.coupled
    exact ⟨ih.ends.congr (Moves.settings hop.moves) rfl, Moves.wellFormed hop.moves ih.server, ih.client,
      hc.serverHop ih.ends hfit hop⟩

theorem clientHops [CryptoLaws] (h : Linked l) (hfit : LengthsFit l.server.log)
    (hs : Hops l.client c') : Linked { l with client := c' } := by
  induction hs with
  | refl => exact h
  | tail _ hop ih =>
    obtain ⟨fd, fu, hc⟩ := ih.coupled
    exact ⟨ih.ends.congr rfl (Moves.settings hop.moves), ih.server, Moves.wellFormed hop.moves ih.client,
      hc.clientHop ih.ends hfit hop⟩

theorem serverOutputs [CryptoLaws] (h : Linked l) (hfit : LengthsFit l.client.log)
    (ho : Outputs chunk l.server s') : Linked { l with server := s', down := l.down ++ chunk } := by
  cases ho with
  | @mk s1 hd hs =>
    obtain ⟨fd, fu, hc⟩ := h.coupled
    have h1 : Linked { l with server := s1, down := l.down ++ chunk } :=
      ⟨h.ends.congr (congrArg (·.settings) hd.party) rfl, (calms_moves hd.calms).wellFormed h.server,
        h.client, fd, fu, hc.serverDrains hd⟩
    exact h1.serverHops hfit hs

theorem clientOutputs [CryptoLaws] (h : Linked l) (hfit : LengthsFit l.server.log)
    (ho : Outputs chunk l.client c') : Linked { l with client := c', up := l.up ++ chunk } := by
  cases ho with
  | @mk c1 hd hs =>
    obtain ⟨fd, fu, hc⟩ := h.coupled
    have h1 : Linked { l with client := c1, up := l.up ++ chunk } :=
      ⟨h.ends.congr rfl (congrArg (·.settings) hd.party), h.server,
        (calms_moves hd.calms).wellFormed h.client, fd, fu, hc.clientDrains hd⟩
    exact h1.clientHops hfit hs

/-- Bytes reach the server. -/
theorem arriveServer (h : Linked l) (n : Nat) :
    Linked { l with server := fed (l.up.take n) l.server, up := l.up.drop n } := by
  obtain ⟨fd, fu, hc⟩ := h.coupled
  have hmove : Move l.server (fed (l.up.take n) l.server) := Move.recv _ _
  have hup : Carried l.client l.server (l.up.take n ++ l.up.drop n) fu := by
    rw [List.take_append_drop]
    exact hc.up
  exact ⟨h.ends.congr rfl rfl, hmove.wellFormed h.server, h.client, fd, fu, hc.joint,
    hc.down.writer rfl rfl rfl rfl, hup.arrive⟩

/-- Bytes reach the client. -/
theorem arriveClient (h : Linked l) (n : Nat) :
    Linked { l with client := fed (l.down.take n) l.client, down := l.down.drop n } := by
  obtain ⟨fd, fu, hc⟩ := h.coupled
  have hmove : Move l.client (fed (l.down.take n) l.client) := Move.recv _ _
  have hdown : Carried l.server l.client (l.down.take n ++ l.down.drop n) fd := by
    rw [List.take_append_drop]
    exact hc.down
  exact ⟨h.ends.congr rfl rfl, h.server, hmove.wellFormed h.client, fd, fu, hc.joint,
    hdown.arrive, hc.up.writer rfl rfl rfl rfl⟩

end Linked

namespace Link

variable {l l' : Link} {a : Act}

/-- What happens to the ends, one by one. -/
theorem act_beats (hs : WellFormed l.server) (hc : WellFormed l.client) (h : act a l = some l') :
    Beats l.server l'.server ∧ Beats l.client l'.client := by
  cases a with
  | call side call =>
    cases side with
    | server =>
      obtain ⟨s', hcall, rfl⟩ := Option.map_eq_some_iff.mp h
      exact ⟨(callEnd_outputs hs hcall).beats, .refl⟩
    | client =>
      obtain ⟨c', hcall, rfl⟩ := Option.map_eq_some_iff.mp h
      exact ⟨.refl, (callEnd_outputs hc hcall).beats⟩
  | arrive side n =>
    cases side with
    | server =>
      cases h
      exact ⟨.single (.recv _), .refl⟩
    | client =>
      cases h
      exact ⟨.refl, .single (.recv _)⟩

/-- Whatever happens, the invariant is kept. -/
theorem act_linked [CryptoLaws] (hl : Linked l) (h : act a l = some l')
    (hs : LengthsFit l'.server.log) (hc : LengthsFit l'.client.log) : Linked l' := by
  cases a with
  | call side call =>
    cases side with
    | server =>
      obtain ⟨s', hcall, rfl⟩ := Option.map_eq_some_iff.mp h
      exact hl.serverOutputs hc (callEnd_outputs hl.server hcall)
    | client =>
      obtain ⟨c', hcall, rfl⟩ := Option.map_eq_some_iff.mp h
      exact hl.clientOutputs hs (callEnd_outputs hl.client hcall)
  | arrive side n =>
    cases side with
    | server =>
      cases h
      exact hl.arriveServer n
    | client =>
      cases h
      exact hl.arriveClient n

variable {acts : List Act}

theorem acts_beats (hs : WellFormed l.server) (hc : WellFormed l.client)
    (h : acts.foldlM (fun l a => act a l) l = some l') :
    Beats l.server l'.server ∧ Beats l.client l'.client := by
  induction acts generalizing l with
  | nil =>
    cases h
    exact ⟨.refl, .refl⟩
  | cons a acts ih =>
    obtain ⟨l1, hact, hrest⟩ := Option.bind_eq_some_iff.mp h
    obtain ⟨hs1, hc1⟩ := act_beats hs hc hact
    obtain ⟨hs2, hc2⟩ := ih (hs1.moves.wellFormed hs) (hc1.moves.wellFormed hc) hrest
    exact ⟨hs1.trans hs2, hc1.trans hc2⟩

theorem acts_linked [CryptoLaws] (hl : Linked l)
    (h : acts.foldlM (fun l a => act a l) l = some l')
    (hs : LengthsFit l'.server.log) (hc : LengthsFit l'.client.log) : Linked l' := by
  induction acts generalizing l with
  | nil =>
    cases h
    exact hl
  | cons a acts ih =>
    obtain ⟨l1, hact, hrest⟩ := Option.bind_eq_some_iff.mp h
    obtain ⟨hs1, hc1⟩ := act_beats hl.server hl.client hact
    obtain ⟨hs2, hc2⟩ := acts_beats (hs1.moves.wellFormed hl.server)
      (hc1.moves.wellFormed hl.client) hrest
    exact ih (act_linked hl hact (hs.mono hs2.moves.log) (hc.mono hc2.moves.log)) hrest

/-- Before the constructors start an exchange, nothing is sent and nothing in flight. -/
theorem blank_carried (x y : Setup) (rngX rngY : Rng) :
    Carried ⟨x.blank rngX, []⟩ ⟨y.blank rngY, []⟩ [] [] := by
  have hreg : (x.blank rngX).sendLine = (y.blank rngY).recvLine := by
    cases x <;> cases y <;> rfl
  refine ⟨?_, fun i hi => absurd hi List.not_mem_nil, .line ?_ ?_ ?_⟩
  · show Relay packetStamp [] [] [] (y.blank rngY).recvLine (x.blank rngX).sendLine
    rw [hreg]
    exact .start _ _
  · cases y <;> rfl
  · cases y <;> rfl
  · have hheld : (x.blank rngX).held = strBytes (x.blank rngX).identLocal ++ [13, 10] := by
      cases x <;> exact List.append_nil _
    have hempty : (y.blank rngY).identAcc ++ (y.blank rngY).readBuf = [] := by
      cases y <;> rfl
    rw [hempty, hheld]
    exact (List.append_nil _).symm

section Runs

variable {server : ServerConfig} {client : ClientConfig} {rngS rngC : Rng}

/-- A link starts with two connections that have sent their KEXINIT. -/
theorem starts_of_start (h : start server client rngS rngC = some l) :
    Starts ⟨(Setup.server server).blank rngS, []⟩ l.server ∧
      Starts ⟨(Setup.client client).blank rngC, []⟩ l.client ∧ l.down = [] ∧ l.up = [] := by
  obtain ⟨s0, hstartS, hrunS⟩ := (Setup.server server).run_start rngS
  obtain ⟨c0, hstartC, hrunC⟩ := (Setup.client client).run_start rngC
  unfold start at h
  rw [hrunS, hrunC] at h
  obtain rfl : (⟨s0, c0, [], []⟩ : Link) = l := Option.some.inj h
  exact ⟨hstartS, hstartC, rfl, rfl⟩

/-- The invariant holds from the start. -/
theorem start_linked [CryptoLaws] (hs : OneLine server.ident) (hc : OneLine client.ident)
    (h : start server client rngS rngC = some l)
    (hfitS : LengthsFit l.server.log) : Linked l := by
  obtain ⟨hstartS, hstartC, hdown, hup⟩ := starts_of_start h
  obtain ⟨s, c, down, up⟩ := l
  cases hdown
  cases hup
  have hblank : Linked ⟨⟨(Setup.server server).blank rngS, []⟩,
      ⟨(Setup.client client).blank rngC, []⟩, [], []⟩ :=
    { ends := ⟨rfl, rfl, hs, hc⟩
      server := (Setup.server server).blank_wellFormed rngS
      client := (Setup.client client).blank_wellFormed rngC
      coupled := ⟨[], [], .idle rfl rfl rfl, blank_carried _ _ _ _, blank_carried _ _ _ _⟩ }
  have hhopS : Hop ⟨(Setup.server server).blank rngS, []⟩ s :=
    .step (.startKex (Setup.blank_kex _ _) rfl hstartS) nofun
  have hhopC : Hop ⟨(Setup.client client).blank rngC, []⟩ c :=
    .step (.startKex (Setup.blank_kex _ _) rfl hstartC) nofun
  have hnone : LengthsFit [] := fun i hi => absurd hi List.not_mem_nil
  have hserver := hblank.serverHops hnone (ReflTransGen.single hhopS)
  exact hserver.clientHops hfitS (ReflTransGen.single hhopC)

/-- A run, from its start. -/
theorem run_beats (h : run server client rngS rngC acts = some l) :
    ∃ l0, start server client rngS rngC = some l0 ∧
      acts.foldlM (fun l a => act a l) l0 = some l ∧
      Beats l0.server l.server ∧ Beats l0.client l.client := by
  unfold run at h
  rw [Option.bind_eq_bind, Option.bind_eq_some_iff] at h
  obtain ⟨l0, hstart, hacts⟩ := h
  obtain ⟨hstartS, hstartC, -⟩ := starts_of_start hstart
  exact ⟨l0, hstart, hacts, acts_beats (Setup.starts_wellFormed _ hstartS)
    (Setup.starts_wellFormed _ hstartC) hacts⟩

/-- The invariant holds in every run. -/
theorem run_linked [CryptoLaws] (hs : OneLine server.ident) (hc : OneLine client.ident)
    (h : run server client rngS rngC acts = some l) (hfitS : LengthsFit l.server.log)
    (hfitC : LengthsFit l.client.log) : Linked l := by
  obtain ⟨l0, hstart, hacts, hserver, -⟩ := run_beats h
  exact acts_linked (start_linked hs hc hstart (hfitS.mono hserver.moves.log)) hacts hfitS hfitC

end Runs

end Link

end Ssproxy
