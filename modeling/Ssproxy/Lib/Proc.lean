/-
  Ssproxy.Lib.Proc

  Imperative procedures over an explicit state.  A procedure returns a value,
  fails with an error, or panics.  A failure keeps the state reached so far:
  an early return undoes nothing.  A panic ends the process, so it carries no
  state at all.

  - `Outcome` is how one run of a procedure ends, `Proc` the procedures.
  - `Traced` adds a history of observations to a state; procedures over it
    read and update the current state and append to the history.
  - `Outcome.Sat` is total correctness with two postconditions, one for a
    normal return and one for an error; a run that satisfies it did not panic.
  - `Proc.Follows` and `Proc.Returns` are the special cases of a relation
    between the state before and the state after.
  - `Proc.loop` is `while body()? {}` with fuel; `loop_unfold` says when the
    fuel does not matter, and `Ends` is the loop that ends without any.
-/

import Mathlib.Algebra.GroupWithZero.Nat
import Mathlib.Data.UInt

namespace Ssproxy.Lib

-- ============================================================================
-- Outcomes and procedures
-- ============================================================================

/-- How a run of a procedure ends. -/
inductive Outcome (σ ε α : Type) where
  | ok (a : α) (s : σ)
  | err (e : ε) (s : σ)
  | panic

/-- Procedures over states `σ` with errors `ε`. -/
abbrev Proc (σ ε α : Type) : Type := σ → Outcome σ ε α

namespace Outcome

variable {σ ε α β : Type}

/-- Continue after a normal return. -/
def bind : Outcome σ ε α → (α → Proc σ ε β) → Outcome σ ε β
  | ok a s, f => f a s
  | err e s, _ => err e s
  | panic, _ => panic

@[simp] theorem bind_ok (a : α) (s : σ) (f : α → Proc σ ε β) :
    (ok a s).bind f = f a s := rfl

@[simp] theorem bind_err (e : ε) (s : σ) (f : α → Proc σ ε β) :
    (err e s : Outcome σ ε α).bind f = err e s := rfl

@[simp] theorem bind_panic (f : α → Proc σ ε β) :
    (panic : Outcome σ ε α).bind f = panic := rfl

/-- A sequence that returned: both parts returned. -/
theorem of_bind_eq_ok {o : Outcome σ ε α} {f : α → Proc σ ε β} {b : β} {s' : σ}
    (h : o.bind f = ok b s') : ∃ a s, o = ok a s ∧ f a s = ok b s' := by
  cases o with
  | ok a s => exact ⟨a, s, rfl, h⟩
  | err e s => cases h
  | panic => cases h

/-- The state a run ended in, unless it panicked. -/
def state? : Outcome σ ε α → Option σ
  | ok _ s => some s
  | err _ s => some s
  | panic => none

theorem state?_eq_some {o : Outcome σ ε α} {s : σ} (h : o.state? = some s) :
    (∃ a, o = ok a s) ∨ ∃ e, o = err e s := by
  cases o with
  | ok a s' =>
    cases h
    exact .inl ⟨a, rfl⟩
  | err e s' =>
    cases h
    exact .inr ⟨e, rfl⟩
  | panic => cases h

/-- The value a run returned, unless it failed or panicked. -/
def value? : Outcome σ ε α → Option α
  | ok a _ => some a
  | _ => none

/-- The run returned, in a state that passes `f`. -/
def passes (o : Outcome σ ε α) (f : σ → Bool) : Bool :=
  match o with
  | ok _ s => f s
  | _ => false

theorem exists_of_passes {o : Outcome σ ε α} {f : σ → Bool} (h : o.passes f = true) :
    ∃ a s, o = ok a s ∧ f s = true := by
  cases o with
  | ok a s => exact ⟨a, s, rfl, h⟩
  | err e s => cases h
  | panic => cases h

/-- The run did not panic, a normal return satisfies `Q` and an error `E`. -/
def Sat (o : Outcome σ ε α) (Q : α → σ → Prop) (E : ε → σ → Prop) : Prop :=
  match o with
  | ok a s => Q a s
  | err e s => E e s
  | panic => False

@[simp] theorem sat_ok (a : α) (s : σ) (Q : α → σ → Prop) (E : ε → σ → Prop) :
    (ok a s).Sat Q E ↔ Q a s := Iff.rfl

@[simp] theorem sat_err (e : ε) (s : σ) (Q : α → σ → Prop) (E : ε → σ → Prop) :
    (err e s).Sat Q E ↔ E e s := Iff.rfl

@[simp] theorem sat_panic (Q : α → σ → Prop) (E : ε → σ → Prop) :
    (panic : Outcome σ ε α).Sat Q E ↔ False := Iff.rfl

/-- Sequencing: the first part establishes `Q'`, and the rest starts from it. -/
theorem Sat.bind {o : Outcome σ ε α} {f : α → Proc σ ε β}
    {R : α → σ → Prop} {Q : β → σ → Prop} {E : ε → σ → Prop}
    (ho : o.Sat R E) (hf : ∀ a s, R a s → (f a s).Sat Q E) :
    (o.bind f).Sat Q E := by
  cases o with
  | ok a s => exact hf a s ho
  | err e s => exact ho
  | panic => exact ho

/-- Consequence. -/
theorem Sat.mono {o : Outcome σ ε α} {Q R : α → σ → Prop} {E F : ε → σ → Prop}
    (h : o.Sat Q E) (hQ : ∀ a s, Q a s → R a s) (hE : ∀ e s, E e s → F e s) :
    o.Sat R F := by
  cases o with
  | ok a s => exact hQ a s h
  | err e s => exact hE e s h
  | panic => exact h

theorem Sat.and {o : Outcome σ ε α} {Q R : α → σ → Prop} {E F : ε → σ → Prop}
    (h : o.Sat Q E) (h' : o.Sat R F) :
    o.Sat (fun a s => Q a s ∧ R a s) (fun e s => E e s ∧ F e s) := by
  cases o with
  | ok a s => exact ⟨h, h'⟩
  | err e s => exact ⟨h, h'⟩
  | panic => exact h

theorem Sat.ne_panic {o : Outcome σ ε α} {Q : α → σ → Prop} {E : ε → σ → Prop}
    (h : o.Sat Q E) : o ≠ panic := by
  rintro rfl
  exact h

/-- A postcondition read off a known normal return. -/
theorem Sat.of_ok {o : Outcome σ ε α} {Q : α → σ → Prop} {E : ε → σ → Prop}
    {a : α} {s : σ} (h : o.Sat Q E) (ho : o = ok a s) : Q a s := by
  subst ho
  exact h

/-- What cannot fail returns. -/
theorem Sat.exists_ok {o : Outcome σ ε Unit} {Q : Unit → σ → Prop}
    (h : o.Sat Q fun _ _ => False) : ∃ s, o = ok () s ∧ Q () s := by
  cases o with
  | ok a s => exact ⟨s, rfl, h⟩
  | err e s => exact h.elim
  | panic => exact h.elim

/-- A postcondition read off a known error. -/
theorem Sat.of_err {o : Outcome σ ε α} {Q : α → σ → Prop} {E : ε → σ → Prop}
    {e : ε} {s : σ} (h : o.Sat Q E) (ho : o = err e s) : E e s := by
  subst ho
  exact h

/-- What holds of the state after a return and after an error. -/
theorem Sat.of_state {o : Outcome σ ε α} {P : σ → Prop} {s : σ}
    (h : o.Sat (fun _ s => P s) (fun _ s => P s)) (hs : o.state? = some s) : P s := by
  rcases state?_eq_some hs with ⟨a, rfl⟩ | ⟨e, rfl⟩
  · exact h
  · exact h

end Outcome

namespace Proc

variable {σ τ ε α β : Type}

instance : Monad (Proc σ ε) where
  pure a := fun s => .ok a s
  bind m f := fun s => (m s).bind f

/-- The current state. -/
def get : Proc σ ε σ := fun s => .ok s s

/-- Replace the state by `f` of it. -/
def modify (f : σ → σ) : Proc σ ε Unit := fun s => .ok () (f s)

/-- Early return with an error. -/
def throw (e : ε) : Proc σ ε α := fun s => .err e s

/-- `if c { return Err(e) }`. -/
def failIf (c : Prop) [Decidable c] (e : ε) : Proc σ ε Unit :=
  if c then throw e else pure ()

/-- A panic. -/
def abort : Proc σ ε α := fun _ => .panic

/-- `unwrap`: a panic on `none`. -/
def unwrap : Option α → Proc σ ε α
  | some a => fun s => .ok a s
  | none => abort

/-- `if let Some(a) = o { f(a) }`. -/
def ifSome (o : Option α) (f : α → Proc σ ε Unit) : Proc σ ε Unit :=
  match o with
  | some a => f a
  | none => fun s => .ok () s

/-- `ok_or(e)?`. -/
def okOr (o : Option α) (e : ε) : Proc σ ε α :=
  match o with
  | some a => fun s => .ok a s
  | none => throw e

/-- `r?` for a computed result. -/
def ofExcept : Except ε α → Proc σ ε α
  | .ok a => fun s => .ok a s
  | .error e => throw e

/-- `let _ = m`: an error is dropped, the state it left is kept. -/
def ignore (m : Proc σ ε α) : Proc σ ε Unit := fun s =>
  match m s with
  | .ok _ s' => .ok () s'
  | .err _ s' => .ok () s'
  | .panic => .panic

/-- `m.is_ok()`: whether `m` succeeded; the state it left is kept. -/
def succeeds (m : Proc σ ε α) : Proc σ ε Bool := fun s =>
  match m s with
  | .ok _ s' => .ok true s'
  | .err _ s' => .ok false s'
  | .panic => .panic

/-- Run `m` on the local variable `t`, with `?` on its result. -/
def call (m : Proc τ ε α) (t : τ) : Proc σ ε (α × τ) := fun s =>
  match m t with
  | .ok a t' => .ok (a, t') s
  | .err e _ => .err e s
  | .panic => .panic

/-- Run `m` on the local variable `t`, with `unwrap_or(d)` on its result. -/
def callOr (d : α) (m : Proc τ ε α) (t : τ) : Proc σ ε (α × τ) := fun s =>
  match m t with
  | .ok a t' => .ok (a, t') s
  | .err _ t' => .ok (d, t') s
  | .panic => .panic

/-- Run `m` on the part of the state that `part` and `put` single out. -/
def focus (part : σ → τ) (put : τ → σ → σ) (m : Proc τ ε α) : Proc σ ε α := fun s =>
  match m (part s) with
  | .ok a t => .ok a (put t s)
  | .err e t => .err e (put t s)
  | .panic => .panic

/-- `xs[i]`. -/
def index (xs : List α) (i : Nat) : Proc σ ε α := unwrap xs[i]?

/-- `xs[lo..hi]`. -/
def slice (xs : List α) (lo hi : Nat) : Proc σ ε (List α) :=
  if lo ≤ hi ∧ hi ≤ xs.length then pure ((xs.drop lo).take (hi - lo)) else abort

/-- `xs[lo..lo + ys.len()].copy_from_slice(ys)`. -/
def copyInto (xs : List α) (lo : Nat) (ys : List α) : Proc σ ε (List α) :=
  if lo + ys.length ≤ xs.length then
    pure (xs.take lo ++ ys ++ xs.drop (lo + ys.length))
  else abort

/-- `xs.split_at(n)`, also `split_to` and `split_off`. -/
def splitAt (xs : List α) (n : Nat) : Proc σ ε (List α × List α) :=
  if n ≤ xs.length then pure (xs.take n, xs.drop n) else abort

/-- `a - b` on `usize`. -/
def checkedSub (a b : Nat) : Proc σ ε Nat :=
  if b ≤ a then pure (a - b) else abort

/-- `a - b` on `u32`. -/
def checkedSub32 (a b : UInt32) : Proc σ ε UInt32 :=
  if b ≤ a then pure (a - b) else abort

/-- `a + b` on `u32`. -/
def checkedAdd32 (a b : UInt32) : Proc σ ε UInt32 :=
  if a.toNat + b.toNat < 2 ^ 32 then pure (a + b) else abort

/-- `while body()? {}` with at most `fuel` rounds. -/
def loop (body : Proc σ ε Bool) : Nat → Proc σ ε Unit
  | 0 => pure ()
  | fuel + 1 => body >>= fun again => if again then loop body fuel else pure ()

/-- `for x in xs { f(x) }`. -/
def forEach (f : α → Proc σ ε Unit) : List α → Proc σ ε Unit
  | [] => pure ()
  | x :: xs => f x >>= fun _ => forEach f xs

-- ============================================================================
-- Running the primitives
-- ============================================================================

@[simp] theorem pure_apply (a : α) (s : σ) : (pure a : Proc σ ε α) s = .ok a s := rfl

@[simp] theorem bind_apply (m : Proc σ ε α) (f : α → Proc σ ε β) (s : σ) :
    (m >>= f) s = (m s).bind f := rfl

/-- Run the first part of a sequence. -/
theorem bind_of_ok {m : Proc σ ε α} {f : α → Proc σ ε β} {s s' : σ} {a : α}
    (h : m s = .ok a s') : (m >>= f) s = f a s' := by
  rw [bind_apply, h, Outcome.bind_ok]

@[simp] theorem get_apply (s : σ) : (get : Proc σ ε σ) s = .ok s s := rfl

@[simp] theorem modify_apply (f : σ → σ) (s : σ) :
    (modify f : Proc σ ε Unit) s = .ok () (f s) := rfl

@[simp] theorem throw_apply (e : ε) (s : σ) : (throw e : Proc σ ε α) s = .err e s := rfl

@[simp] theorem abort_apply (s : σ) : (abort : Proc σ ε α) s = .panic := rfl

@[simp] theorem ite_apply (c : Prop) [Decidable c] (m m' : Proc σ ε α) (s : σ) :
    (if c then m else m') s = if c then m s else m' s := by
  split <;> rfl

@[simp] theorem failIf_apply (c : Prop) [Decidable c] (e : ε) (s : σ) :
    (failIf c e : Proc σ ε Unit) s = if c then .err e s else .ok () s := by
  unfold failIf
  split <;> rfl

@[simp] theorem unwrap_some (a : α) (s : σ) :
    (unwrap (some a) : Proc σ ε α) s = .ok a s := rfl

@[simp] theorem okOr_some (a : α) (e : ε) (s : σ) :
    (okOr (some a) e : Proc σ ε α) s = .ok a s := rfl

@[simp] theorem okOr_none (e : ε) (s : σ) :
    (okOr none e : Proc σ ε α) s = .err e s := rfl

@[simp] theorem ofExcept_ok (a : α) (s : σ) :
    (ofExcept (.ok a) : Proc σ ε α) s = .ok a s := rfl

@[simp] theorem ofExcept_error (e : ε) (s : σ) :
    (ofExcept (.error e) : Proc σ ε α) s = .err e s := rfl

theorem index_of_lt {xs : List α} {i : Nat} (h : i < xs.length) (s : σ) :
    (index xs i : Proc σ ε α) s = .ok xs[i] s := by
  simp [index, List.getElem?_eq_getElem h]

theorem slice_of_le {xs : List α} {lo hi : Nat} (h : lo ≤ hi) (h' : hi ≤ xs.length) (s : σ) :
    (slice xs lo hi : Proc σ ε (List α)) s = .ok ((xs.drop lo).take (hi - lo)) s := by
  simp [slice, h, h']

theorem copyInto_of_le {xs ys : List α} {lo : Nat} (h : lo + ys.length ≤ xs.length) (s : σ) :
    (copyInto xs lo ys : Proc σ ε (List α)) s
      = .ok (xs.take lo ++ ys ++ xs.drop (lo + ys.length)) s := by
  simp [copyInto, h]

/-- Overwriting the middle of three parts. -/
theorem copyInto_middle {as bs cs ys : List α} (h : bs.length = ys.length) (s : σ) :
    (copyInto (as ++ bs ++ cs) as.length ys : Proc σ ε (List α)) s = .ok (as ++ ys ++ cs) s := by
  have hle : as.length + ys.length ≤ (as ++ bs ++ cs).length := by
    simp only [List.length_append]
    omega
  have htake : (as ++ bs ++ cs).take as.length = as := by
    rw [List.append_assoc]
    exact List.take_left
  have hdrop : (as ++ bs ++ cs).drop (as.length + ys.length) = cs := by
    rw [← h, ← List.length_append]
    exact List.drop_left
  rw [copyInto_of_le hle, htake, hdrop]

theorem splitAt_left (as bs : List α) (s : σ) :
    (splitAt (as ++ bs) as.length : Proc σ ε (List α × List α)) s = .ok (as, bs) s := by
  simp [splitAt]

theorem splitAt_of_le {xs : List α} {n : Nat} (h : n ≤ xs.length) (s : σ) :
    (splitAt xs n : Proc σ ε (List α × List α)) s = .ok (xs.take n, xs.drop n) s := by
  simp [splitAt, h]

theorem checkedSub_of_le {a b : Nat} (h : b ≤ a) (s : σ) :
    (checkedSub a b : Proc σ ε Nat) s = .ok (a - b) s := by
  simp [checkedSub, h]

theorem checkedSub32_of_le {a b : UInt32} (h : b ≤ a) (s : σ) :
    (checkedSub32 a b : Proc σ ε UInt32) s = .ok (a - b) s := by
  simp [checkedSub32, h]

theorem checkedAdd32_of_lt {a b : UInt32} (h : a.toNat + b.toNat < 2 ^ 32) (s : σ) :
    (checkedAdd32 a b : Proc σ ε UInt32) s = .ok (a + b) s := by
  simp only [checkedAdd32, h, if_true, pure_apply]

-- ============================================================================
-- Rules for the composite forms
-- ============================================================================

variable {Q : α → σ → Prop} {E : ε → σ → Prop}

theorem sat_ifSome {o : Option α} {f : α → Proc σ ε Unit} {s : σ} {Q' : Unit → σ → Prop}
    (hnone : o = none → Q' () s) (hsome : ∀ a, o = some a → (f a s).Sat Q' E) :
    (ifSome o f s).Sat Q' E := by
  cases o with
  | none => exact hnone rfl
  | some a => exact hsome a rfl

/-- Dropping the error of `m`: both its ends lead on. -/
theorem sat_ignore {m : Proc σ ε α} {s : σ} {Q' : Unit → σ → Prop}
    (h : (m s).Sat (fun _ s' => Q' () s') (fun _ s' => Q' () s')) :
    (ignore m s).Sat Q' E := by
  unfold ignore
  cases hm : m s with
  | ok a s' => rw [hm] at h; exact h
  | err e s' => rw [hm] at h; exact h
  | panic => rw [hm] at h; exact h

/-- Turning the error of `m` into `false`. -/
theorem sat_succeeds {m : Proc σ ε α} {s : σ} {Q' : Bool → σ → Prop}
    (h : (m s).Sat (fun _ s' => Q' true s') (fun _ s' => Q' false s')) :
    (succeeds m s).Sat Q' E := by
  unfold succeeds
  cases hm : m s with
  | ok a s' => rw [hm] at h; exact h
  | err e s' => rw [hm] at h; exact h
  | panic => rw [hm] at h; exact h

/-- `call` leaves the outer state alone. -/
theorem sat_call {m : Proc τ ε α} {t : τ} {s : σ} {R : α → τ → Prop} {R' : ε → τ → Prop}
    (h : (m t).Sat R R') :
    ((call m t : Proc σ ε (α × τ)) s).Sat (fun r s' => s = s' ∧ R r.1 r.2) (fun _ s' => s = s') := by
  unfold call
  cases hm : m t with
  | ok a t' => rw [hm] at h; exact ⟨rfl, h⟩
  | err e t' => rfl
  | panic => rw [hm] at h; exact h

/-- `callOr` leaves the outer state alone and does not fail. -/
theorem sat_callOr {d : α} {m : Proc τ ε α} {t : τ} {s : σ} {R : α → τ → Prop}
    {R' : ε → τ → Prop} (h : (m t).Sat R R') :
    ((callOr d m t : Proc σ ε (α × τ)) s).Sat (fun _ s' => s = s') E := by
  unfold callOr
  cases hm : m t with
  | ok a t' => rfl
  | err e t' => rfl
  | panic => rw [hm] at h; exact h

/-- A loop that returns has passed between any two of its rounds. -/
theorem forEach_append {f : α → Proc σ ε Unit} {xs ys : List α} {s s'' : σ}
    (h : forEach f (xs ++ ys) s = .ok () s'') :
    ∃ s', forEach f xs s = .ok () s' ∧ forEach f ys s' = .ok () s'' := by
  induction xs generalizing s with
  | nil => exact ⟨s, rfl, h⟩
  | cons x xs ih =>
    rw [List.cons_append, forEach, bind_apply] at h
    cases hx : f x s with
    | ok a s1 =>
      rw [hx, Outcome.bind_ok] at h
      obtain ⟨s', hxs, hys⟩ := ih h
      refine ⟨s', ?_, hys⟩
      rw [forEach, bind_of_ok hx]
      exact hxs
    | err e s1 =>
      rw [hx] at h
      cases h
    | panic =>
      rw [hx] at h
      cases h

/-- An invariant of the body of `while` is an invariant of the loop. -/
theorem sat_loop {body : Proc σ ε Bool} {I : σ → Prop} {E : ε → σ → Prop}
    (hb : ∀ s, I s → (body s).Sat (fun _ s' => I s') E) :
    ∀ (fuel : Nat) (s : σ), I s → (loop body fuel s).Sat (fun _ s' => I s') E
  | 0, _, h => h
  | fuel + 1, s, h => (hb s h).bind fun again s' h' => by
      cases again with
      | false => exact h'
      | true => exact sat_loop hb fuel s' h'

/-- `m` started in `s` moves along `R`, whether it returns or fails, and does
    not panic. -/
def Follows (R : σ → σ → Prop) (m : Proc σ ε α) (s : σ) : Prop :=
  (m s).Sat (fun _ s' => R s s') (fun _ s' => R s s')

/-- `m` started in `s` moves along `R` and returns: no error, no panic. -/
def Returns (R : σ → σ → Prop) (m : Proc σ ε α) (s : σ) : Prop :=
  (m s).Sat (fun _ s' => R s s') (fun _ _ => False)

section Paths

variable {R : σ → σ → Prop} {m : Proc σ ε α} {s : σ}

/-- With its error dropped, a procedure returns. -/
theorem Follows.ignore (hm : Follows R m s) : Returns R (ignore m) s := sat_ignore hm

theorem Returns.follows (hm : Returns R m s) : Follows R m s :=
  Outcome.Sat.mono hm (fun _ _ h => h) fun _ _ h => h.elim

theorem Returns.bind {f : α → Proc σ ε β} (hR : ∀ {s s' s''}, R s s' → R s' s'' → R s s'')
    (hm : Returns R m s) (hf : ∀ a s', R s s' → Returns R (f a) s') : Returns R (m >>= f) s :=
  Outcome.Sat.bind hm fun a s' h => (hf a s' h).mono (fun _ _ h' => hR h h') fun _ _ h' => h'

theorem Returns.forEach {f : α → Proc σ ε Unit} (hrefl : ∀ s, R s s)
    (htrans : ∀ {s s' s''}, R s s' → R s' s'' → R s s'') (hf : ∀ x s, Returns R (f x) s) :
    ∀ (xs : List α) (s : σ), Returns R (forEach f xs) s
  | [], s => hrefl s
  | x :: xs, s => Returns.bind htrans (hf x s) fun _ s' _ =>
      Returns.forEach hrefl htrans hf xs s'

end Paths

/-- With more fuel than the measure, one more unit changes nothing. -/
theorem loop_succ {body : Proc σ ε Bool} {I : σ → Prop} {μ : σ → Nat}
    (hμ : ∀ s s', I s → body s = .ok true s' → I s' ∧ μ s' < μ s) :
    ∀ (fuel : Nat) (s : σ), I s → μ s < fuel → loop body (fuel + 1) s = loop body fuel s
  | 0, _, _, h => absurd h (Nat.not_lt_zero _)
  | fuel + 1, s, hI, h => by
      rw [loop, loop, bind_apply, bind_apply]
      cases hb : body s with
      | err e s' => rfl
      | panic => rfl
      | ok again s' =>
        cases again with
        | false => rfl
        | true =>
          obtain ⟨hI', hlt⟩ := hμ s s' hI hb
          exact loop_succ hμ fuel s' hI' (Nat.lt_of_lt_of_le hlt (Nat.le_of_lt_succ h))

/-- Any two amounts of fuel above the measure do the same. -/
theorem loop_fuel {body : Proc σ ε Bool} {I : σ → Prop} {μ : σ → Nat}
    (hμ : ∀ s s', I s → body s = .ok true s' → I s' ∧ μ s' < μ s) {n m : Nat} {s : σ}
    (hI : I s) (hn : μ s < n) (hm : μ s < m) : loop body n s = loop body m s := by
  have hmore : ∀ k, loop body (μ s + 1 + k) s = loop body (μ s + 1) s := by
    intro k
    induction k with
    | zero => rfl
    | succ k ih =>
      rw [← ih]
      exact loop_succ hμ (μ s + 1 + k) s hI (by omega)
  obtain ⟨j, rfl⟩ := Nat.exists_eq_add_of_le hn
  obtain ⟨k, rfl⟩ := Nat.exists_eq_add_of_le hm
  exact (hmore j).trans (hmore k).symm

/-- A loop whose body lowers a measure satisfies the equation of `while` once
    it has more fuel than the measure: the fuel does not show. -/
theorem loop_unfold {body : Proc σ ε Bool} {I : σ → Prop} {μ : σ → Nat}
    (hμ : ∀ s s', I s → body s = .ok true s' → I s' ∧ μ s' < μ s) {fuel : Nat} {s : σ}
    (hI : I s) (hs : μ s < fuel) :
    loop body fuel s
      = (body s).bind fun again s' => if again then loop body fuel s' else .ok () s' := by
  rw [← loop_succ hμ fuel s hI hs, loop, bind_apply]
  cases body s with
  | ok again s' => cases again <;> rfl
  | err e s' => rfl
  | panic => rfl

/-- The loop ends, whatever the fuel: after `n` rounds that go on comes one that
    does not. -/
inductive Ends (body : Proc σ ε Bool) : Nat → σ → σ → Prop
  | stop {s s' : σ} (h : body s = .ok false s') : Ends body 0 s s'
  | again {n : Nat} {s s1 s' : σ} (h : body s = .ok true s1) (hrest : Ends body n s1 s') :
      Ends body (n + 1) s s'

namespace Ends

variable {body : Proc σ ε Bool} {n : Nat} {s s' : σ}

theorem loop_eq (h : Ends body n s s') {fuel : Nat} (hfuel : n < fuel) :
    loop body fuel s = .ok () s' := by
  induction h generalizing fuel with
  | stop h =>
    obtain ⟨fuel, rfl⟩ := Nat.exists_eq_succ_of_ne_zero (Nat.ne_of_gt hfuel)
    rw [loop, bind_of_ok h]
    rfl
  | again h hrest ih =>
    obtain ⟨fuel, rfl⟩ := Nat.exists_eq_succ_of_ne_zero (Nat.ne_of_gt (Nat.zero_lt_of_lt hfuel))
    rw [loop, bind_of_ok h]
    exact ih (Nat.lt_of_succ_lt_succ hfuel)

/-- A loop that ends does not go on forever. -/
theorem not_forever (h : Ends body n s s') :
    ¬ ∃ run : Nat → σ, run 0 = s ∧ ∀ i, body (run i) = .ok true (run (i + 1)) := by
  induction h with
  | stop h =>
    rintro ⟨run, rfl, hrun⟩
    rw [hrun 0] at h
    cases h
  | again h hrest ih =>
    rintro ⟨run, rfl, hrun⟩
    rw [hrun 0] at h
    cases h
    exact ih ⟨fun i => run (i + 1), rfl, fun i => hrun (i + 1)⟩

end Ends

/-- A loop whose body neither fails nor panics, and lowers a measure where it
    goes on, ends within that many rounds. -/
theorem exists_ends {body : Proc σ ε Bool} {I : σ → Prop} {μ : σ → Nat}
    (hbody : ∀ s, I s → (body s).Sat
      (fun again s' => again = true → I s' ∧ μ s' < μ s) (fun _ _ => False))
    {k : Nat} {s : σ} (hI : I s) (hk : μ s ≤ k) : ∃ n ≤ k, ∃ s', Ends body n s s' := by
  induction k generalizing s with
  | zero =>
    cases hs : body s with
    | err e s' => exact ((hbody s hI).of_err hs).elim
    | panic => exact absurd hs (hbody s hI).ne_panic
    | ok again s' =>
      cases again with
      | false => exact ⟨0, Nat.le_refl 0, s', .stop hs⟩
      | true =>
        have := (((hbody s hI).of_ok hs) rfl).2
        omega
  | succ k ih =>
    cases hs : body s with
    | err e s' => exact ((hbody s hI).of_err hs).elim
    | panic => exact absurd hs (hbody s hI).ne_panic
    | ok again s' =>
      cases again with
      | false => exact ⟨0, Nat.zero_le _, s', .stop hs⟩
      | true =>
        obtain ⟨hI', hlt⟩ := ((hbody s hI).of_ok hs) rfl
        obtain ⟨n, hn, s'', hends⟩ := ih hI' (by omega)
        exact ⟨n + 1, Nat.succ_le_succ hn, s'', .again hs hends⟩

end Proc

-- ============================================================================
-- States with a history
-- ============================================================================

/-- A state together with the observations made so far, oldest first. -/
structure Traced (σ ω : Type) where
  now : σ
  log : List ω

namespace Traced

variable {σ ω ε : Type}

/-- The current state. -/
def read : Proc (Traced σ ω) ε σ := fun c => .ok c.now c

/-- Update the current state. -/
def update (f : σ → σ) : Proc (Traced σ ω) ε Unit := fun c => .ok () { c with now := f c.now }

/-- Append to the history. -/
def observe (o : ω) : Proc (Traced σ ω) ε Unit := fun c => .ok () { c with log := c.log ++ [o] }

@[simp] theorem read_apply (c : Traced σ ω) :
    (read : Proc (Traced σ ω) ε σ) c = .ok c.now c := rfl

@[simp] theorem update_apply (f : σ → σ) (c : Traced σ ω) :
    (update f : Proc (Traced σ ω) ε Unit) c = .ok () ⟨f c.now, c.log⟩ := rfl

@[simp] theorem observe_apply (o : ω) (c : Traced σ ω) :
    (observe o : Proc (Traced σ ω) ε Unit) c = .ok () ⟨c.now, c.log ++ [o]⟩ := rfl

end Traced

end Ssproxy.Lib
