/-
  Ssproxy.Lib.Epoch

  A register that advances with every use and may be replaced.  Each value it
  is replaced by starts a new epoch.  Two uses in one epoch are as many ticks
  apart as there are uses between them, so a value comes back only after a
  whole period.
-/

import Mathlib.Logic.Function.Iterate

namespace Ssproxy.Lib

variable {ρ : Type}

/-- `l` are the uses of a register, oldest first, each with its epoch and the
    value that was used; `now` is the register after them. -/
structure Metered (tick : ρ → ρ) (l : List (Nat × ρ)) (now : Nat × ρ) : Prop where
  past : ∀ i u, l[i]? = some u → u.1 ≤ now.1 ∧ (u.1 = now.1 → now.2 = tick^[l.length - i] u.2)
  pairs : ∀ i j u v, i < j → l[i]? = some u → l[j]? = some v → u.1 = v.1 →
    v.2 = tick^[j - i] u.2

namespace Metered

variable {tick : ρ → ρ} {l : List (Nat × ρ)} {now : Nat × ρ}

theorem nil (tick : ρ → ρ) (now : Nat × ρ) : Metered tick [] now :=
  ⟨fun i u h => by simp at h, fun i j u v _ h => by simp at h⟩

/-- A use. -/
theorem use (h : Metered tick l now) : Metered tick (l ++ [now]) (now.1, tick now.2) := by
  -- a use in the longer list is an old one or the last one
  have hlast : ∀ {i : Nat} {u : Nat × ρ}, (l ++ [now])[i]? = some u →
      i < l.length ∧ l[i]? = some u ∨ i = l.length ∧ u = now := by
    intro i u hi
    rcases Nat.lt_or_ge i l.length with hlt | hge
    · rw [List.getElem?_append_left hlt] at hi
      exact .inl ⟨hlt, hi⟩
    · rw [List.getElem?_append_right hge, List.getElem?_singleton] at hi
      split at hi
      · cases hi
        exact .inr ⟨by omega, rfl⟩
      · cases hi
  refine ⟨fun i u hi => ?_, fun i j u v hij hi hj hsame => ?_⟩
  · rcases hlast hi with ⟨hlt, hi⟩ | ⟨rfl, rfl⟩
    · obtain ⟨hle, hreg⟩ := h.past i u hi
      refine ⟨hle, fun hsame => ?_⟩
      have hlen : (l ++ [now]).length - i = (l.length - i) + 1 := by
        rw [List.length_append, List.length_singleton]
        omega
      rw [hlen, Function.iterate_succ_apply', ← hreg hsame]
    · refine ⟨Nat.le_refl _, fun _ => ?_⟩
      rw [List.length_append, List.length_singleton, Nat.add_sub_cancel_left]
      rfl
  · rcases hlast hj with ⟨hlt, hj⟩ | ⟨rfl, rfl⟩
    · rcases hlast hi with ⟨-, hi⟩ | ⟨rfl, -⟩
      · exact h.pairs i j u v hij hi hj hsame
      · omega
    · rcases hlast hi with ⟨-, hi⟩ | ⟨rfl, -⟩
      · exact (h.past i u hi).2 hsame
      · omega

/-- A replacement. -/
theorem renew {later : Nat × ρ} (h : Metered tick l now) (hlt : now.1 < later.1) :
    Metered tick l later := by
  refine ⟨fun i u hi => ?_, h.pairs⟩
  have hle := (h.past i u hi).1
  exact ⟨by omega, fun hsame => by omega⟩

/-- In one epoch a value that comes back does so after a multiple of its period. -/
theorem spaced {β : Type} {f : ρ → β} {n i j : Nat} {u v : Nat × ρ} (h : Metered tick l now)
    (hperiod : ∀ k, f (tick^[k] u.2) = f u.2 → n ∣ k) (hij : i < j) (hi : l[i]? = some u)
    (hj : l[j]? = some v) (hsame : u.1 = v.1) (hval : f v.2 = f u.2) : n ≤ j - i := by
  rw [h.pairs i j u v hij hi hj hsame] at hval
  exact Nat.le_of_dvd (by omega) (hperiod _ hval)

end Metered

end Ssproxy.Lib
