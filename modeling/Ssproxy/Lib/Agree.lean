/-
  Ssproxy.Lib.Agree

  Two runs side by side.  `Outcome.Agree S` says that two runs ended the same
  way, with the same value or the same error, in states related by `S`;
  `Proc.Respects S` that two procedures do so from states related by `S`.

  `Proc.Static` is a procedure whose end does not depend on the state and that
  leaves the state alone; it respects every relation.
-/

import Ssproxy.Lib.Proc

namespace Ssproxy.Lib

variable {σ τ ε α β : Type}

-- ============================================================================
-- Outcomes
-- ============================================================================

namespace Outcome

/-- The same end, in related states. -/
def Agree (S : σ → σ → Prop) : Outcome σ ε α → Outcome σ ε α → Prop
  | ok a s, ok a' s' => a = a' ∧ S s s'
  | err e s, err e' s' => e = e' ∧ S s s'
  | panic, panic => True
  | _, _ => False

variable {S T : σ → σ → Prop} {o o' : Outcome σ ε α}

theorem Agree.refl (hS : ∀ s, S s s) : (o : Outcome σ ε α) → Agree S o o
  | ok _ s => ⟨rfl, hS s⟩
  | err _ s => ⟨rfl, hS s⟩
  | panic => trivial

theorem Agree.mono (h : Agree S o o') (hST : ∀ s s', S s s' → T s s') : Agree T o o' := by
  cases o <;> cases o' <;> simp only [Agree] at h ⊢
  · exact ⟨h.1, hST _ _ h.2⟩
  · exact ⟨h.1, hST _ _ h.2⟩

theorem Agree.bind {f f' : α → Proc σ ε β} (h : Agree S o o')
    (hf : ∀ a s s', S s s' → Agree T (f a s) (f' a s')) (hST : ∀ s s', S s s' → T s s') :
    Agree T (o.bind f) (o'.bind f') := by
  cases o <;> cases o' <;> simp only [Agree] at h
  · obtain ⟨rfl, hs⟩ := h
    exact hf _ _ _ hs
  · exact ⟨h.1, hST _ _ h.2⟩
  · exact h

/-- What the other run did, given this one returned. -/
theorem Agree.of_ok {a : α} {s : σ} (h : Agree S o o') (ho : o = ok a s) :
    ∃ s', o' = ok a s' ∧ S s s' := by
  subst ho
  cases o' with
  | ok a' s' =>
    obtain ⟨rfl, hs⟩ := h
    exact ⟨s', rfl, hs⟩
  | err e s' => exact h.elim
  | panic => exact h.elim

/-- What the other run did, given this one failed. -/
theorem Agree.of_err {e : ε} {s : σ} (h : Agree S o o') (ho : o = err e s) :
    ∃ s', o' = err e s' ∧ S s s' := by
  subst ho
  cases o' with
  | ok a' s' => exact h.elim
  | err e' s' =>
    obtain ⟨rfl, hs⟩ := h
    exact ⟨s', rfl, hs⟩
  | panic => exact h.elim

theorem Agree.of_panic (h : Agree S o o') (ho : o = panic) : o' = panic := by
  subst ho
  cases o' with
  | ok a' s' => exact h.elim
  | err e s' => exact h.elim
  | panic => rfl

end Outcome

-- ============================================================================
-- Procedures
-- ============================================================================

namespace Proc

/-- From related states both end the same way, in related states. -/
def Respects (S : σ → σ → Prop) (m m' : Proc σ ε α) : Prop :=
  ∀ s s', S s s' → (m s).Agree S (m' s')

variable {S : σ → σ → Prop} {m m' : Proc σ ε α}

theorem Respects.bind {f f' : α → Proc σ ε β} (hm : Respects S m m')
    (hf : ∀ a, Respects S (f a) (f' a)) : Respects S (m >>= f) (m' >>= f') := by
  intro s s' h
  exact (hm s s' h).bind (fun a _ _ h' => hf a _ _ h') fun _ _ h' => h'

/-- A procedure that does not look at the state and leaves it alone. -/
inductive Static (m : Proc σ ε α) : Prop
  | ok (a : α) (h : ∀ s, m s = .ok a s)
  | err (e : ε) (h : ∀ s, m s = .err e s)
  | panic (h : ∀ s, m s = .panic)

theorem Static.respects (h : Static m) : Respects S m m := by
  intro s s' hs
  cases h with
  | ok a h =>
    rw [h s, h s']
    exact ⟨rfl, hs⟩
  | err e h =>
    rw [h s, h s']
    exact ⟨rfl, hs⟩
  | panic h =>
    rw [h s, h s']
    trivial

theorem Static.state_eq {a : α} {s s' : σ} (hm : Static m) (h : m s = .ok a s') : s' = s := by
  cases hm with
  | ok a' hm =>
    rw [hm s] at h
    cases h
    rfl
  | err e hm =>
    rw [hm s] at h
    cases h
  | panic hm =>
    rw [hm s] at h
    cases h

theorem Static.bind {f : α → Proc σ ε β} (hm : Static m) (hf : ∀ a, Static (f a)) :
    Static (m >>= f) := by
  cases hm with
  | err e h => exact .err e fun s => by rw [bind_apply, h, Outcome.bind_err]
  | panic h => exact .panic fun s => by rw [bind_apply, h, Outcome.bind_panic]
  | ok a h =>
    have hs : m >>= f = f a := funext fun s => bind_of_ok (h s)
    rw [hs]
    exact hf a

theorem static_pure (a : α) : Static (pure a : Proc σ ε α) := .ok a fun _ => rfl

theorem static_throw (e : ε) : Static (throw e : Proc σ ε α) := .err e fun _ => rfl

theorem static_abort : Static (abort : Proc σ ε α) := .panic fun _ => rfl

theorem static_ite {c : Prop} [Decidable c] (hm : Static m) (hm' : Static m') :
    Static (if c then m else m') := by
  split
  · exact hm
  · exact hm'

theorem static_failIf {c : Prop} [Decidable c] (e : ε) :
    Static (failIf c e : Proc σ ε Unit) := static_ite (static_throw e) (static_pure ())

theorem static_ofExcept (r : Except ε α) : Static (ofExcept r : Proc σ ε α) := by
  cases r with
  | ok a => exact static_pure a
  | error e => exact static_throw e

theorem static_unwrap (o : Option α) : Static (unwrap o : Proc σ ε α) := by
  cases o with
  | none => exact static_abort
  | some a => exact static_pure a

theorem static_index (xs : List α) (i : Nat) : Static (index xs i : Proc σ ε α) :=
  static_unwrap _

theorem static_splitAt (xs : List α) (n : Nat) :
    Static (splitAt xs n : Proc σ ε (List α × List α)) := static_ite (static_pure _) static_abort

theorem static_copyInto (xs : List α) (lo : Nat) (ys : List α) :
    Static (copyInto xs lo ys : Proc σ ε (List α)) := static_ite (static_pure _) static_abort

theorem static_slice (xs : List α) (lo hi : Nat) :
    Static (slice xs lo hi : Proc σ ε (List α)) := static_ite (static_pure _) static_abort

theorem static_checkedSub (a b : Nat) : Static (checkedSub a b : Proc σ ε Nat) :=
  static_ite (static_pure _) static_abort

theorem static_checkedSub32 (a b : UInt32) : Static (checkedSub32 a b : Proc σ ε UInt32) :=
  static_ite (static_pure _) static_abort

theorem static_checkedAdd32 (a b : UInt32) : Static (checkedAdd32 a b : Proc σ ε UInt32) :=
  static_ite (static_pure _) static_abort

theorem static_okOr (o : Option α) (e : ε) : Static (okOr o e : Proc σ ε α) := by
  cases o with
  | none => exact static_throw e
  | some a => exact static_pure a

/-- A call on a local variable does not look at the state. -/
theorem static_call (p : Proc τ ε α) (t : τ) : Static (call p t : Proc σ ε (α × τ)) := by
  unfold call
  cases p t with
  | ok a t' => exact static_pure (a, t')
  | err e t' => exact static_throw e
  | panic => exact static_abort

theorem static_callOr (d : α) (p : Proc τ ε α) (t : τ) :
    Static (callOr d p t : Proc σ ε (α × τ)) := by
  unfold callOr
  cases p t with
  | ok a t' => exact static_pure (a, t')
  | err e t' => exact static_pure (d, t')
  | panic => exact static_abort

-- ============================================================================
-- Composite forms
-- ============================================================================

theorem Respects.ite {c : Prop} [Decidable c] {n n' : Proc σ ε α} (hm : Respects S m m')
    (hn : Respects S n n') : Respects S (if c then m else n) (if c then m' else n') := by
  split
  · exact hm
  · exact hn

theorem Respects.ifSome {o : Option α} {f f' : α → Proc σ ε Unit}
    (hf : ∀ a, Respects S (f a) (f' a)) : Respects S (ifSome o f) (ifSome o f') := by
  cases o with
  | none => exact (static_pure ()).respects
  | some a => exact hf a

theorem Respects.ignore (hm : Respects S m m') : Respects S (ignore m) (ignore m') := by
  intro s s' h
  have hend := hm s s' h
  unfold Proc.ignore
  cases hs : m s with
  | ok a s1 =>
    obtain ⟨s1', hs', h1⟩ := hend.of_ok hs
    rw [hs']
    exact ⟨rfl, h1⟩
  | err e s1 =>
    obtain ⟨s1', hs', h1⟩ := hend.of_err hs
    rw [hs']
    exact ⟨rfl, h1⟩
  | panic =>
    rw [hend.of_panic hs]
    trivial

theorem Respects.succeeds (hm : Respects S m m') : Respects S (succeeds m) (succeeds m') := by
  intro s s' h
  have hend := hm s s' h
  unfold Proc.succeeds
  cases hs : m s with
  | ok a s1 =>
    obtain ⟨s1', hs', h1⟩ := hend.of_ok hs
    rw [hs']
    exact ⟨rfl, h1⟩
  | err e s1 =>
    obtain ⟨s1', hs', h1⟩ := hend.of_err hs
    rw [hs']
    exact ⟨rfl, h1⟩
  | panic =>
    rw [hend.of_panic hs]
    trivial

theorem Respects.loop {body body' : Proc σ ε Bool} (hb : Respects S body body') (fuel : Nat) :
    Respects S (loop body fuel) (loop body' fuel) := by
  induction fuel with
  | zero => exact (static_pure ()).respects
  | succ fuel ih => exact hb.bind fun again => ih.ite (static_pure ()).respects

theorem Respects.forEach {f f' : α → Proc σ ε Unit} (hf : ∀ a, Respects S (f a) (f' a))
    (xs : List α) : Respects S (forEach f xs) (forEach f' xs) := by
  induction xs with
  | nil => exact (static_pure ()).respects
  | cons x xs ih => exact (hf x).bind fun _ => ih

/-- A call on a part of the state that is the same on both sides. -/
theorem Respects.focus {part : σ → τ} {put : τ → σ → σ}
    (hpart : ∀ s s', S s s' → part s' = part s)
    (hput : ∀ t s s', S s s' → S (put t s) (put t s')) (p : Proc τ ε α) :
    Respects S (focus part put p) (focus part put p) := by
  intro s s' h
  unfold Proc.focus
  rw [hpart s s' h]
  cases p (part s) with
  | ok a t => exact ⟨rfl, hput t s s' h⟩
  | err e t => exact ⟨rfl, hput t s s' h⟩
  | panic => trivial

end Proc

end Ssproxy.Lib
