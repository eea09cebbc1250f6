/-
  Ssproxy.Safety

  Two results about every run of a connection of either role, whatever the
  peer sends and whatever the application calls: no call panics, and after the
  first key exchange no direction ever goes back to cleartext.
-/

import Ssproxy.Refine.Run

namespace Ssproxy

open Lib Wire Connection

variable [CryptoLib]

namespace Setup

/-- Every state a run reaches is well-formed. -/
theorem run_wellFormed (setup : Setup) (rng : Rng) (calls : List Call) :
    (setup.run rng calls).Sat (fun _ c => WellFormed c) (fun _ _ => False) := by
  refine (setup.run_sat rng calls).mono ?_ fun _ _ h => h
  rintro _ c ⟨c0, h0, hmoves⟩
  exact Moves.wellFormed hmoves (setup.starts_wellFormed h0)

/-- In every state that a run reaches, no call panics, whatever its arguments. -/
theorem run_no_panic (setup : Setup) (rng : Rng) (calls : List Call) :
    (setup.run rng calls).Sat (fun _ c => ∀ call : Call, call.run c ≠ .panic)
      (fun _ _ => False) := by
  refine (setup.run_wellFormed rng calls).mono ?_ fun _ _ h => h
  intro _ c hwf call
  exact (call.run_follows c hwf).ne_panic

end Setup

/-- Both directions are under an AEAD cipher. -/
structure Encrypted (c : Connection) : Prop where
  send : c.sendCipher ≠ .clear ∧ c.sendCipher.kind.isAead = true
  recv : c.recvCipher ≠ .clear ∧ c.recvCipher.kind.isAead = true

omit [CryptoLib] in
theorem ne_clear_of_aead {keys : DirectionKeys} (h : keys.kind.isAead = true) : keys ≠ .clear := by
  rintro rfl
  cases h

omit [CryptoLib] in
theorem WellFormed.encrypted {c : Conn} (h : WellFormed c) (hf : c.now.firstKexDone = true) :
    Encrypted c.now := by
  obtain ⟨hs, hr⟩ := h.kex.encrypted hf
  exact ⟨⟨ne_clear_of_aead hs, hs⟩, ne_clear_of_aead hr, hr⟩

/-- The flags of the key exchange agree with its state, and from the end of the
    first exchange on both directions stay encrypted. -/
theorem Setup.run_no_downgrade (setup : Setup) (rng : Rng) (calls : List Call) :
    (setup.run rng calls).Sat (fun _ c =>
      (c.now.sentKexinit = true ↔ c.now.kex.isSome = true) ∧
      (c.now.pendingKeys.isSome = true →
        c.now.kex.isSome = true ∧ c.now.sentNewkeys = true ∧ c.now.recvNewkeys = false) ∧
      (c.now.firstKexDone = true → ∀ more : List Call,
        (runCalls more c).Sat (fun _ c' => Encrypted c'.now) (fun _ _ => False)))
      (fun _ _ => False) := by
  refine (setup.run_wellFormed rng calls).mono ?_ fun _ _ h => h
  intro _ c hwf
  refine ⟨?_, ?_, ?_⟩
  · rw [show c.now.sentKexinit = c.now.kex.isSome from hwf.kex.kexinit]
  · intro hpk
    obtain ⟨pk, hpk⟩ := Option.isSome_iff_exists.mp hpk
    obtain ⟨hk, hs, -⟩ := hwf.kex.pending pk hpk
    exact ⟨hk, hs, hwf.kex.unfinished hk⟩
  · intro hf more
    refine (runCalls_follows more c hwf).mono ?_ fun _ _ h => h
    intro _ c' hmoves
    exact (Moves.wellFormed hmoves hwf).encrypted ((Moves.rises hmoves).firstKexDone hf)

end Ssproxy
