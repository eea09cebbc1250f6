/-
  Ssproxy.Lib.History

  Histories as lists, oldest first.  `since p` is the part after the last
  element with `p`; `AllAlong P` says that `P` held at every moment of a
  history, that is, of each of its initial parts.  A run that makes something
  true makes it true in one of its steps.
-/

import Mathlib.Data.List.Induction
import Mathlib.Logic.Relation

namespace Ssproxy.Lib

variable {ω : Type} {p : ω → Bool} {P : List ω → Prop} {l new : List ω} {o : ω}

-- ============================================================================
-- The last segment
-- ============================================================================

/-- The part of `l` after the last element with `p`; all of it if there is none. -/
def since (p : ω → Bool) (l : List ω) : List ω :=
  l.foldl (fun segment o => if p o then [] else segment ++ [o]) []

theorem since_concat (p : ω → Bool) (l : List ω) (o : ω) :
    since p (l ++ [o]) = if p o then [] else since p l ++ [o] := by
  simp [since]

theorem since_concat_of_pos (h : p o = true) : since p (l ++ [o]) = [] := by
  rw [since_concat, if_pos h]

theorem since_append (h : ∀ o ∈ new, p o = false) : since p (l ++ new) = since p l ++ new := by
  induction new using List.reverseRecOn with
  | nil => simp
  | append_singleton new o ih =>
    have ho : p o = false := h o (List.mem_append_right _ List.mem_cons_self)
    have hnew := ih fun x hx => h x (List.mem_append_left _ hx)
    rw [← List.append_assoc, since_concat, hnew, ho, if_neg Bool.false_ne_true, List.append_assoc]

/-- A segment between two elements with `p` is what stood there at its end. -/
theorem since_segment {before segment : List ω} (ho : p o = true)
    (h : ∀ x ∈ segment, p x = false) : since p (before ++ o :: segment) = segment := by
  have hsplit : before ++ o :: segment = (before ++ [o]) ++ segment := by simp
  rw [hsplit, since_append h, since_concat_of_pos ho, List.nil_append]

/-- The last segment stands behind the last element with `p`. -/
theorem exists_since (h : l.any p = true) :
    ∃ before o, l = before ++ o :: since p l ∧ p o = true ∧ ∀ x ∈ since p l, p x = false := by
  induction l using List.reverseRecOn with
  | nil => cases h
  | append_singleton l o ih =>
    cases ho : p o with
    | true =>
      rw [since_concat_of_pos ho]
      exact ⟨l, o, rfl, ho, by simp⟩
    | false =>
      obtain ⟨before, o', hl, ho', hsegment⟩ := ih (by simpa [ho] using h)
      rw [since_concat, ho, if_neg Bool.false_ne_true]
      refine ⟨before, o', ?_, ho', fun x hx => ?_⟩
      · conv_lhs => rw [hl]
        simp
      · rcases List.mem_append.mp hx with hx | hx
        · exact hsegment x hx
        · rw [List.mem_singleton.mp hx, ho]

-- ============================================================================
-- At every moment
-- ============================================================================

/-- `P` held at every moment of the history. -/
def AllAlong (P : List ω → Prop) (l : List ω) : Prop := ∀ l', l' <+: l → P l'

namespace AllAlong

theorem nil (h : P []) : AllAlong P [] := fun l' hl' => by rwa [List.prefix_nil.mp hl']

theorem concat (h : AllAlong P l) (ho : P (l ++ [o])) : AllAlong P (l ++ [o]) := by
  intro l' hl'
  rcases List.prefix_concat_iff.mp hl' with rfl | hl'
  · exact ho
  · exact h l' hl'

theorem append (h : AllAlong P l) (hnew : ∀ new', new' <+: new → P (l ++ new')) :
    AllAlong P (l ++ new) := by
  induction new using List.reverseRecOn with
  | nil => rwa [List.append_nil]
  | append_singleton new o ih =>
    rw [← List.append_assoc]
    refine (ih fun new' hpre => hnew new' (hpre.trans (List.prefix_append _ _))).concat ?_
    rw [List.append_assoc]
    exact hnew _ List.prefix_rfl

end AllAlong

/-- An element of a history that grew is an old one or a new one. -/
theorem split_append {pre post : List ω} (h : l ++ new = pre ++ o :: post) :
    (∃ post', l = pre ++ o :: post') ∨ ∃ mid, pre = l ++ mid ∧ new = mid ++ o :: post := by
  rcases List.append_eq_append_iff.mp h with ⟨mid, hpre, hnew⟩ | ⟨mid, hl, hpost⟩
  · exact .inr ⟨mid, hpre, hnew⟩
  · cases mid with
    | nil => exact .inr ⟨[], by simpa using hl.symm, hpost.symm⟩
    | cons x rest =>
      rw [List.cons_append] at hpost
      obtain ⟨rfl, -⟩ := List.cons.inj hpost
      exact .inl ⟨rest, hl⟩

-- ============================================================================
-- The step in which something happened
-- ============================================================================

/-- What holds at the end of a run and not at its start became true in a step. -/
theorem exists_step {σ : Type} {r : σ → σ → Prop} {happened : σ → Prop} {s s' : σ}
    (h : Relation.ReflTransGen r s s') (hs : ¬happened s) (hs' : happened s') :
    ∃ t t', Relation.ReflTransGen r s t ∧ ¬happened t ∧ r t t' ∧ happened t' ∧
      Relation.ReflTransGen r t' s' := by
  induction h with
  | refl => exact absurd hs' hs
  | @tail t s' hpre hlast ih =>
    by_cases ht : happened t
    · obtain ⟨u, u', hpre', hu, hstep, hu', hpost⟩ := ih ht
      exact ⟨u, u', hpre', hu, hstep, hu', hpost.tail hlast⟩
    · exact ⟨t, s', hpre, ht, hlast, hs', .refl⟩

end Ssproxy.Lib
