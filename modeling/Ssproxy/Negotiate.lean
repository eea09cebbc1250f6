/-
  Ssproxy.Negotiate

  The choice of the ciphers against RFC 4253, section 7.1: the cipher of a
  direction is the first name on the client's list that the server lists too.
  `negotiate` takes the first name on our own list instead.  For a client the
  two are the same; for a server they agree exactly when the first of our
  ciphers on the peer's list is the one that we rank highest among those there.
-/

import Ssproxy.Refine.Run
import Ssproxy.Laws
import Mathlib.Data.List.Basic

namespace Ssproxy

open Lib Wire Connection

-- ============================================================================
-- Two orders of preference
-- ============================================================================

section Preference

variable {α : Type} [BEq α] [LawfulBEq α]

/-- `find?` takes the first of the elements that pass. -/
theorem idxOf_le_of_find? {l : List α} {p : α → Bool} {a b : α} (h : l.find? p = some a)
    (hb : b ∈ l) (hp : p b = true) : l.idxOf a ≤ l.idxOf b := by
  induction l with
  | nil => cases h
  | cons x l ih =>
    rw [List.find?_cons] at h
    cases hx : p x with
    | true =>
      rw [hx] at h
      cases h
      simp
    | false =>
      rw [hx] at h
      have hne : x ≠ b := fun hxb => by
        rw [hxb, hp] at hx
        cases hx
      have hne' : x ≠ a := fun hxa => by
        rw [hxa, List.find?_some h] at hx
        cases hx
      have hb' : b ∈ l := (List.mem_cons.mp hb).resolve_left hne.symm
      simp only [List.idxOf_cons, beq_eq_false_iff_ne.mpr hne, beq_eq_false_iff_ne.mpr hne',
        cond_false]
      exact Nat.add_le_add_right (ih h hb') 1

/-- The first common element in the order of `l` is the first one in the order
    of `m` exactly when `l` puts it before all other common elements. -/
theorem find?_contains_comm (l m : List α) :
    l.find? (m.contains ·) = m.find? (l.contains ·) ↔
      ∀ f, m.find? (l.contains ·) = some f → ∀ n ∈ m, n ∈ l → l.idxOf f ≤ l.idxOf n := by
  constructor
  · intro heq f hf n hm hl
    exact idxOf_le_of_find? (heq.trans hf) hl (List.contains_iff_mem.mpr hm)
  · intro hle
    cases hf : m.find? (l.contains ·) with
    | none =>
      rw [List.find?_eq_none] at hf ⊢
      intro x hx hm
      exact hf x (List.contains_iff_mem.mp hm) (List.contains_iff_mem.mpr hx)
    | some f =>
      have hfl : f ∈ l := List.contains_iff_mem.mp (List.find?_some (p := (l.contains ·)) hf)
      have hfm : f ∈ m := List.mem_of_find?_eq_some hf
      cases hg : l.find? (m.contains ·) with
      | none =>
        exact absurd (List.contains_iff_mem.mpr hfm) (List.find?_eq_none.mp hg f hfl)
      | some g =>
        have hgl : g ∈ l := List.mem_of_find?_eq_some hg
        have hgm : g ∈ m := List.contains_iff_mem.mp (List.find?_some (p := (m.contains ·)) hg)
        have h1 := idxOf_le_of_find? hg hfl (List.contains_iff_mem.mpr hfm)
        have h2 := hle f hf g hgm hgl
        exact congrArg some ((List.idxOf_inj hgl).mp (Nat.le_antisymm h1 h2))

end Preference

-- ============================================================================
-- The choice of RFC 4253
-- ============================================================================

/-- The choice of RFC 4253: the first of the client's names that the server
    lists too. -/
def rfcChoice (client server : List String) : Option String := client.find? (server.contains ·)

/-- The client's list, of ours and the peer's. -/
def clientList (role : Role) (ours theirs : List String) : List String :=
  match role with
  | .server => theirs
  | .client => ours

/-- The server's list, of ours and the peer's. -/
def serverList (role : Role) (ours theirs : List String) : List String :=
  match role with
  | .server => ours
  | .client => theirs

/-- The recorded cipher is the one of RFC 4253 for the two lists. -/
def Chosen (role : Role) (ours theirs : List String) (recorded : Option CipherKind) : Prop :=
  ∃ n, rfcChoice (clientList role ours theirs) (serverList role ours theirs) = some n ∧
    recorded = CipherKind.fromName n ∧ recorded.isSome = true

/-- Both recorded ciphers are those of RFC 4253. -/
structure FollowsRfc (role : Role) (k : KexState) (theirs : KexInit) : Prop where
  c2s : Chosen role k.ours.encC2s theirs.encC2s k.cipherC2s
  s2c : Chosen role k.ours.encS2c theirs.encS2c k.cipherS2c

/-- Of our ciphers on the list `names`, the first is the one we rank highest. -/
def PrefersOurs (names : List String) : Prop :=
  ∀ f, names.find? (serverCiphers.contains ·) = some f →
    ∀ n ∈ names, n ∈ serverCiphers → serverCiphers.idxOf f ≤ serverCiphers.idxOf n

theorem negotiate_eq_find? (names : List String) :
    negotiate serverCiphers names false = serverCiphers.find? (names.contains ·) := by
  simp [negotiate]

/-- Distinct ciphers of ours have distinct kinds. -/
theorem fromName_injective {m n : String} (hm : m ∈ serverCiphers) (hn : n ∈ serverCiphers)
    (h : CipherKind.fromName m = CipherKind.fromName n) : m = n := by
  simp only [serverCiphers, List.mem_cons, List.not_mem_nil, or_false] at hm hn
  rcases hm with rfl | rfl | rfl <;> rcases hn with rfl | rfl | rfl <;>
    first | rfl | exact absurd h (by decide)

/-- What `negotiate` picked, recorded by a connection of either role. -/
theorem chosen_iff (role : Role) {names : List String} {n : String}
    (h : negotiate serverCiphers names false = some n) :
    Chosen role serverCiphers names (CipherKind.fromName n) ↔
      role = .client ∨ PrefersOurs names := by
  have hsome : (CipherKind.fromName n).isSome = true := by
    obtain ⟨k, hk, -⟩ := fromName_of_negotiate h
    rw [hk]
    rfl
  rw [negotiate_eq_find?] at h
  cases role with
  | client => exact ⟨fun _ => .inl rfl, fun _ => ⟨n, h, rfl, hsome⟩⟩
  | server =>
    have hcomm := find?_contains_comm serverCiphers names
    constructor
    · rintro ⟨n', hn', heq, -⟩
      have hmem' : n' ∈ serverCiphers :=
        List.contains_iff_mem.mp (List.find?_some (p := (serverCiphers.contains ·)) hn')
      have hsame := fromName_injective (List.mem_of_find?_eq_some h) hmem' heq
      exact .inr (hcomm.mp (h.trans (hsame ▸ hn'.symm)))
    · rintro (hrole | hpref)
      · cases hrole
      · exact ⟨n, (hcomm.mpr hpref).symm.trans h, rfl, hsome⟩

-- ============================================================================
-- on_kexinit
-- ============================================================================

variable [CryptoLib]

/-- The state of the exchange after an accepted KEXINIT. -/
theorem onKexinit_kex {p : Bytes} {c c' : Conn} (hwf : WellFormed c)
    (hok : onKexinit p c = .ok () c') :
    ∃ k theirs q c2s s2c, KexInit.parseBody p (.new p) = .ok theirs q ∧
      Negotiates theirs c2s s2c ∧ c'.now.kex = some k ∧ k.theirs = some theirs ∧
      k.ours.encC2s = serverCiphers ∧ k.ours.encS2c = serverCiphers ∧
      k.cipherC2s = CipherKind.fromName c2s ∧ k.cipherS2c = CipherKind.fromName s2c := by
  have hsat : (onKexinit p c).Sat (fun _ c' =>
      ∃ k theirs q c2s s2c, KexInit.parseBody p (.new p) = .ok theirs q ∧
        Negotiates theirs c2s s2c ∧ c'.now.kex = some k ∧ k.theirs = some theirs ∧
        k.ours.encC2s = serverCiphers ∧ k.ours.encS2c = serverCiphers ∧
        k.cipherC2s = CipherKind.fromName c2s ∧ k.cipherS2c = CipherKind.fromName s2c)
      (fun _ _ => True) := by
    unfold onKexinit
    refine ((KexInit.parse_sat p c).mono (fun _ _ h => h) fun _ _ _ => trivial).bind ?_
    rintro theirs _ ⟨rfl, q, hp⟩
    refine ((joinKex_sat c).mono (fun _ _ h => h) fun _ _ _ => trivial).bind ?_
    rintro _ c2 ⟨hj, k, hk⟩
    have hwf2 := hj.wellFormed hwf
    obtain ⟨cookie, hours⟩ := hwf2.kex.ours k hk
    have henc : k.ours.encC2s = serverCiphers ∧ k.ours.encS2c = serverCiphers := by
      rw [hours]
      exact ⟨rfl, rfl⟩
    refine (acceptKexinit_sat theirs hk hwf2).mono ?_ fun _ _ _ => trivial
    intro _ c' ha
    cases ha with
    | server hrole hn => exact ⟨_, theirs, q, _, _, hp, hn, rfl, rfl, henc.1, henc.2, rfl, rfl⟩
    | client hrole hn hpub hq =>
      have hkex := congrArg (·.conn.kex) hq.control
      exact ⟨_, theirs, q, _, _, hp, hn, hkex, rfl, henc.1, henc.2, rfl, rfl⟩
  exact hsat.of_ok hok

/-- An accepted KEXINIT leads to the ciphers of RFC 4253 exactly when we are
    the client, or the peer ranks the ciphers it shares with us as we do, as far
    as the first is concerned. -/
theorem onKexinit_followsRfc_iff {setup : Setup} {p : Bytes} {c c' : Conn}
    (hreach : setup.Reaches c) (hok : onKexinit p c = .ok () c') :
    ∃ k theirs q, KexInit.parseBody p (.new p) = .ok theirs q ∧ c'.now.kex = some k ∧
      k.theirs = some theirs ∧ (FollowsRfc setup.role k theirs ↔
        setup.role = .client ∨ PrefersOurs theirs.encC2s ∧ PrefersOurs theirs.encS2c) := by
  obtain ⟨k, theirs, q, c2s, s2c, hp, hn, hk, ht, ho1, ho2, hc2s, hs2c⟩ :=
    onKexinit_kex hreach.wellFormed hok
  refine ⟨k, theirs, q, hp, hk, ht, ?_⟩
  have h1 := chosen_iff setup.role hn.c2s
  have h2 := chosen_iff setup.role hn.s2c
  rw [← hc2s, ← ho1] at h1
  rw [← hs2c, ← ho2] at h2
  constructor
  · intro h
    rcases h1.mp h.c2s with hrole | hpref1
    · exact .inl hrole
    rcases h2.mp h.s2c with hrole | hpref2
    · exact .inl hrole
    exact .inr ⟨hpref1, hpref2⟩
  · rintro (hrole | ⟨hpref1, hpref2⟩)
    · exact ⟨h1.mpr (.inl hrole), h2.mpr (.inl hrole)⟩
    · exact ⟨h1.mpr (.inr hpref1), h2.mpr (.inr hpref2)⟩

/-- A server that has read the peer's ident line. -/
def greeted : List Call := [.recv Toy.identLine, .processIn]

omit [CryptoLib] in
/-- A peer that lists our ciphers in our order. -/
theorem onKexinit_followsRfc_iff_sameOrder : ∃ c c' k theirs,
    @Setup.Reaches Toy.lib (.server Toy.server) c ∧
    @onKexinit Toy.lib (Toy.kexinit ["curve25519-sha256"] serverCiphers) c = .ok () c' ∧
    c'.now.kex = some k ∧ k.theirs = some theirs ∧ FollowsRfc .server k theirs := by
  have hpass : ((@Setup.run Toy.lib (.server Toy.server) Toy.rng greeted).bind fun _ =>
      @onKexinit Toy.lib (Toy.kexinit ["curve25519-sha256"] serverCiphers)).passes (fun c =>
        c.now.kex.bind (·.theirs) |>.any fun theirs =>
          theirs.encC2s == serverCiphers && theirs.encS2c == serverCiphers) = true := by
    decide +kernel
  obtain ⟨_, c', hrun', hc'⟩ := Outcome.exists_of_passes hpass
  obtain ⟨_, c, hrun, hok⟩ := Outcome.of_bind_eq_ok hrun'
  have hreach := @Setup.Reaches.of_run Toy.lib _ _ _ _ hrun
  obtain ⟨k, theirs, q, -, hk, ht, hiff⟩ := @onKexinit_followsRfc_iff Toy.lib _ _ _ _ hreach hok
  rw [hk, Option.bind_some, ht, Option.any_some, Bool.and_eq_true, beq_iff_eq, beq_iff_eq] at hc'
  refine ⟨c, c', k, theirs, hreach, hok, hk, ht, hiff.mpr (.inr ?_)⟩
  rw [hc'.1, hc'.2]
  have hself : PrefersOurs serverCiphers := (find?_contains_comm serverCiphers serverCiphers).mp rfl
  exact ⟨hself, hself⟩

omit [CryptoLib] in
/-- A client that prefers aes128-gcm to aes256-gcm. -/
theorem server_order_wins : ¬∀ (lib : CryptoLib) (setup : Setup) (p : Bytes) (c c' : Conn)
    (k : KexState) (theirs : KexInit), @Setup.Reaches lib setup c → @onKexinit lib p c = .ok () c' →
    c'.now.kex = some k → k.theirs = some theirs → FollowsRfc setup.role k theirs := by
  intro hclaim
  have hpass : ((@Setup.run Toy.lib (.server Toy.server) Toy.rng greeted).bind fun _ =>
      @onKexinit Toy.lib (Toy.kexinit ["curve25519-sha256"]
        ["aes128-gcm@openssh.com", "aes256-gcm@openssh.com"])).passes (fun c =>
        c.now.kex.any fun k => k.cipherC2s == some .aes256Gcm && k.ours.encC2s == serverCiphers
          && k.theirs.any (·.encC2s == ["aes128-gcm@openssh.com", "aes256-gcm@openssh.com"])) = true := by
    decide +kernel
  obtain ⟨_, c', hrun', hc'⟩ := Outcome.exists_of_passes hpass
  obtain ⟨_, c, hrun, hok⟩ := Outcome.of_bind_eq_ok hrun'
  obtain ⟨k, hk, hc'⟩ := (Option.any_eq_true _ _).mp hc'
  simp only [Bool.and_eq_true, beq_iff_eq] at hc'
  obtain ⟨⟨hkind, hours⟩, hthe⟩ := hc'
  obtain ⟨theirs, ht, henc⟩ := (Option.any_eq_true _ _).mp hthe
  have henc := beq_iff_eq.mp henc
  have hrfc := (hclaim _ _ _ _ _ k theirs (@Setup.Reaches.of_run Toy.lib _ _ _ _ hrun) hok hk ht).c2s
  rw [hkind, hours, henc] at hrfc
  obtain ⟨n, hn, heq, -⟩ := hrfc
  have hn' : rfcChoice ["aes128-gcm@openssh.com", "aes256-gcm@openssh.com"] serverCiphers
    = some "aes128-gcm@openssh.com" := by decide
  cases hn'.symm.trans hn
  exact absurd heq (by decide)

end Ssproxy
