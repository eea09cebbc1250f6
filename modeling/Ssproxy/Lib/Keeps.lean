/-
  Ssproxy.Lib.Keeps

  Frame rules.  `Proc.Keeps f m` says that `m` leaves the part `f` of the state
  alone, whether it returns or fails.  What is put together from procedures
  that keep `f` keeps `f`; a procedure that leaves the state alone keeps
  everything.
-/

import Ssproxy.Lib.Agree

namespace Ssproxy.Lib.Proc

variable {σ τ ε α β π : Type} {f : σ → π} {m : Proc σ ε α}

/-- Where `m` ends, `f` of the state is what it was. -/
def Keeps (f : σ → π) (m : Proc σ ε α) : Prop :=
  ∀ s s', (m s).state? = some s' → f s' = f s

-- ============================================================================
-- Primitives
-- ============================================================================

theorem Static.keeps (h : Static m) : Keeps f m := by
  intro s s' hend
  cases h with
  | ok a h =>
    rw [h s] at hend
    cases hend
    rfl
  | err e h =>
    rw [h s] at hend
    cases hend
    rfl
  | panic h =>
    rw [h s] at hend
    cases hend

theorem keeps_pure (a : α) : Keeps f (pure a : Proc σ ε α) := (static_pure a).keeps

theorem keeps_throw (e : ε) : Keeps f (throw e : Proc σ ε α) := (static_throw e).keeps

theorem keeps_failIf (c : Prop) [Decidable c] (e : ε) :
    Keeps f (failIf c e : Proc σ ε Unit) := (static_failIf e).keeps

theorem keeps_unwrap (o : Option α) : Keeps f (unwrap o : Proc σ ε α) := (static_unwrap o).keeps

theorem keeps_okOr (o : Option α) (e : ε) : Keeps f (okOr o e : Proc σ ε α) :=
  (static_okOr o e).keeps

theorem keeps_ofExcept (r : Except ε α) : Keeps f (ofExcept r : Proc σ ε α) :=
  (static_ofExcept r).keeps

theorem keeps_slice (xs : List α) (lo hi : Nat) : Keeps f (slice xs lo hi : Proc σ ε (List α)) :=
  (static_slice xs lo hi).keeps

theorem keeps_splitAt (xs : List α) (n : Nat) :
    Keeps f (splitAt xs n : Proc σ ε (List α × List α)) := (static_splitAt xs n).keeps

theorem keeps_checkedSub (a b : Nat) : Keeps f (checkedSub a b : Proc σ ε Nat) :=
  (static_checkedSub a b).keeps

theorem keeps_checkedSub32 (a b : UInt32) : Keeps f (checkedSub32 a b : Proc σ ε UInt32) :=
  (static_checkedSub32 a b).keeps

theorem keeps_checkedAdd32 (a b : UInt32) : Keeps f (checkedAdd32 a b : Proc σ ε UInt32) :=
  (static_checkedAdd32 a b).keeps

theorem keeps_call (p : Proc τ ε α) (t : τ) : Keeps f (call p t : Proc σ ε (α × τ)) :=
  (static_call p t).keeps

/-- A call on a part of the state that does not show in `f`. -/
theorem keeps_focus {part : σ → τ} {put : τ → σ → σ} (h : ∀ t s, f (put t s) = f s)
    (p : Proc τ ε α) : Keeps f (focus part put p) := by
  intro s s' hend
  unfold focus at hend
  cases hp : p (part s) with
  | ok a t =>
    rw [hp] at hend
    cases hend
    exact h t s
  | err e t =>
    rw [hp] at hend
    cases hend
    exact h t s
  | panic =>
    rw [hp] at hend
    cases hend

theorem keeps_callOr (d : α) (p : Proc τ ε α) (t : τ) :
    Keeps f (callOr d p t : Proc σ ε (α × τ)) := (static_callOr d p t).keeps

-- ============================================================================
-- Composition
-- ============================================================================

theorem Keeps.bind {g : α → Proc σ ε β} (hm : Keeps f m) (hg : ∀ a, Keeps f (g a)) :
    Keeps f (m >>= g) := by
  intro s s' hend
  rw [bind_apply] at hend
  cases hs : m s with
  | ok a s1 =>
    rw [hs] at hend
    have h1 := hm s s1 (by rw [hs]; rfl)
    exact (hg a s1 s' hend).trans h1
  | err e s1 =>
    rw [hs] at hend
    exact hm s s' (by rw [hs]; exact hend)
  | panic =>
    rw [hs] at hend
    cases hend

theorem keeps_ite {c : Prop} [Decidable c] {m' : Proc σ ε α} (hm : Keeps f m)
    (hm' : Keeps f m') : Keeps f (if c then m else m') := by
  split
  · exact hm
  · exact hm'

theorem keeps_ifSome {o : Option α} {g : α → Proc σ ε Unit} (hg : ∀ a, Keeps f (g a)) :
    Keeps f (ifSome o g) := by
  cases o with
  | none => exact keeps_pure ()
  | some a => exact hg a

theorem Keeps.ignore (hm : Keeps f m) : Keeps f (ignore m) := by
  intro s s' hend
  refine hm s s' ?_
  unfold Proc.ignore at hend
  cases hs : m s with
  | ok a s1 =>
    rw [hs] at hend
    exact hend
  | err e s1 =>
    rw [hs] at hend
    exact hend
  | panic =>
    rw [hs] at hend
    cases hend

theorem Keeps.succeeds (hm : Keeps f m) : Keeps f (succeeds m) := by
  intro s s' hend
  refine hm s s' ?_
  unfold Proc.succeeds at hend
  cases hs : m s with
  | ok a s1 =>
    rw [hs] at hend
    exact hend
  | err e s1 =>
    rw [hs] at hend
    exact hend
  | panic =>
    rw [hs] at hend
    cases hend

theorem Keeps.loop {body : Proc σ ε Bool} (hb : Keeps f body) (fuel : Nat) :
    Keeps f (loop body fuel) := by
  induction fuel with
  | zero => exact keeps_pure ()
  | succ fuel ih => exact hb.bind fun again => keeps_ite ih (keeps_pure ())

theorem Keeps.forEach {g : α → Proc σ ε Unit} (hg : ∀ a, Keeps f (g a)) (xs : List α) :
    Keeps f (forEach g xs) := by
  induction xs with
  | nil => exact keeps_pure ()
  | cons x xs ih => exact (hg x).bind fun _ => ih

end Ssproxy.Lib.Proc

namespace Ssproxy.Lib.Traced

variable {σ ω ε π : Type} {f : σ → π}

theorem keeps_read : Proc.Keeps (fun c : Traced σ ω => f c.now) (read : Proc (Traced σ ω) ε σ) := by
  intro s s' hend
  cases hend
  rfl

theorem keeps_update {g : σ → σ} (h : ∀ s, f (g s) = f s) :
    Proc.Keeps (fun c : Traced σ ω => f c.now) (update g : Proc (Traced σ ω) ε Unit) := by
  intro s s' hend
  cases hend
  exact h s.now

theorem keeps_observe (o : ω) :
    Proc.Keeps (fun c : Traced σ ω => f c.now) (observe o : Proc (Traced σ ω) ε Unit) := by
  intro s s' hend
  cases hend
  rfl

end Ssproxy.Lib.Traced
