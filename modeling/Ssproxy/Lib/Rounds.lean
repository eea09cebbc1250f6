/-
  Ssproxy.Lib.Rounds

  A sequence that goes round: it repeats a fixed round, and its last round may
  be unfinished.  `InRounds w i l` says that `i` elements of the last round are
  there; the rules are those of a counter that is advanced and wrapped.
-/

import Mathlib.Data.List.Basic

namespace Ssproxy.Lib

variable {α : Type}

/-- `l` is made of rounds of `w`, and of the first `i` elements of one more. -/
def InRounds (w : List α) (i : Nat) (l : List α) : Prop :=
  ∃ n, l = (List.replicate n w).flatten ++ w.take i

namespace InRounds

variable {w l : List α} {i : Nat} {x : α}

theorem nil (w : List α) : InRounds w 0 [] := ⟨0, rfl⟩

/-- The next element of the round. -/
theorem next (h : InRounds w i l) (hx : w[i]? = some x) : InRounds w (i + 1) (l ++ [x]) := by
  obtain ⟨n, rfl⟩ := h
  refine ⟨n, ?_⟩
  rw [List.take_add_one, hx, List.append_assoc, Option.toList_some]

/-- The round is complete, and the next one is empty. -/
theorem wrap (h : InRounds w w.length l) : InRounds w 0 l := by
  obtain ⟨n, rfl⟩ := h
  refine ⟨n + 1, ?_⟩
  rw [List.replicate_succ', List.flatten_append, List.take_length, List.take_zero,
    List.append_nil, List.flatten_singleton]

theorem isPrefix (h : InRounds w i l) : ∃ n, l <+: (List.replicate n w).flatten := by
  obtain ⟨n, rfl⟩ := h
  refine ⟨n + 1, ?_⟩
  rw [List.replicate_succ', List.flatten_append, List.flatten_singleton]
  exact List.prefix_append_right_inj _ |>.mpr (List.take_prefix i w)

end InRounds

end Ssproxy.Lib
