-- SUMMARY: Procedures: computations on a state that may fail with an error and keep what they wrote, and the rules of their weakest preconditions.
import Mathlib.Data.Nat.Notation

/-!
# Procedures

A computation on a state that returns a result or fails with an error, and keeps
what it wrote either way. `wp x Q s` says that `x`, run from `s`, ends in `Q`,
whichever of its two ends it comes to.
-/

/-- A computation on `σ` that may fail with `ε`. -/
abbrev Procedure (σ ε : Type) : Type → Type := ExceptT ε (StateM σ)

namespace Procedure

variable {σ ε δ α β : Type}

/-- The end of a procedure, and the state it leaves. -/
def exec (x : Procedure σ ε α) (s : σ) : Except ε α × σ := StateT.run (ExceptT.run x) s

/-- The state a procedure leaves. -/
def final (x : Procedure σ ε α) (s : σ) : σ := (exec x s).2

/-- An error that is caught is a result, others are not. -/
def attempt (caught : ε → Option δ) (x : Procedure σ ε α) : Procedure σ ε (Except δ α) :=
  ExceptT.mk do
    match ← ExceptT.run x with
    | .ok a => return .ok (.ok a)
    | .error e => match caught e with
      | some d => return .ok (.error d)
      | none => return .error e

/-! ## Weakest preconditions -/

/-- Run from `s`, the procedure ends in `Q`. -/
def wp (x : Procedure σ ε α) (Q : Except ε α → σ → Prop) (s : σ) : Prop := Q (exec x s).1 (exec x s).2

section Rules

variable {Q : Except ε α → σ → Prop} {R : Except ε β → σ → Prop} {s : σ}

@[simp] theorem wp_get {Q : Except ε σ → σ → Prop} : wp get Q s ↔ Q (.ok s) s := Iff.rfl

@[simp] theorem wp_modify {Q : Except ε PUnit → σ → Prop} {f : σ → σ} :
    wp (modify f) Q s ↔ Q (.ok ⟨⟩) (f s) := Iff.rfl

/-- A sequence ends where its first part fails, or where its second part ends. -/
theorem wp_bind_iff {x : Procedure σ ε α} {f : α → Procedure σ ε β} :
    wp (x >>= f) R s ↔ wp x (fun r t => match r with
      | .ok a => wp (f a) R t
      | .error e => R (.error e) t) s := by
  have hexec : exec (x >>= f) s = match exec x s with
      | (.ok a, t) => exec (f a) t
      | (.error e, t) => (.error e, t) := by
    change (ExceptT.bindCont f (exec x s).1) (exec x s).2 = _
    rcases exec x s with ⟨_ | _, t⟩ <;> rfl
  unfold wp
  rw [hexec]
  rcases exec x s with ⟨_ | _, t⟩ <;> exact Iff.rfl

@[simp] theorem wp_get_bind {f : σ → Procedure σ ε β} : wp (get >>= f) R s ↔ wp (f s) R s := by
  rw [wp_bind_iff, wp_get]

@[simp] theorem wp_modify_bind {f : σ → σ} {g : PUnit → Procedure σ ε β} :
    wp (modify f >>= g) R s ↔ wp (g ⟨⟩) R (f s) := by
  rw [wp_bind_iff, wp_modify]

theorem wp_mono {x : Procedure σ ε α} {P : Except ε α → σ → Prop} (h : wp x P s)
    (hPQ : ∀ r t, P r t → Q r t) : wp x Q s := hPQ _ _ h

theorem wp_and {x : Procedure σ ε α} {P : Except ε α → σ → Prop} (h : wp x P s) (h' : wp x Q s) :
    wp x (fun r t => P r t ∧ Q r t) s := ⟨h, h'⟩

/-- The rule of sequences, with an assertion in between. -/
theorem wp_bind {x : Procedure σ ε α} {f : α → Procedure σ ε β} {P : Except ε α → σ → Prop}
    (hx : wp x P s) (hok : ∀ a t, P (.ok a) t → wp (f a) R t)
    (herror : ∀ e t, P (.error e) t → R (.error e) t) : wp (x >>= f) R s := by
  rw [wp_bind_iff]
  refine wp_mono hx fun r t h => ?_
  cases r with
  | ok a => exact hok a t h
  | error e => exact herror e t h

/-- The rule of an error handler. -/
theorem wp_attempt {x : Procedure σ ε α} {caught : ε → Option δ}
    {R : Except ε (Except δ α) → σ → Prop} {P : Except ε α → σ → Prop} (hx : wp x P s)
    (hok : ∀ a t, P (.ok a) t → R (.ok (.ok a)) t)
    (hcaught : ∀ e d t, caught e = some d → P (.error e) t → R (.ok (.error d)) t)
    (herror : ∀ e t, caught e = none → P (.error e) t → R (.error e) t) :
    wp (attempt caught x) R s := by
  have hexec : exec (attempt caught x) s = match exec x s with
      | (.ok a, t) => (.ok (.ok a), t)
      | (.error e, t) => match caught e with
        | some d => (.ok (.error d), t)
        | none => (.error e, t) := by
    have hmatch : exec (attempt caught x) s =
        (match (exec x s).1 with
          | .ok a => (pure (.ok (.ok a)) : StateM σ (Except ε (Except δ α)))
          | .error e => match caught e with
            | some d => pure (.ok (.error d))
            | none => pure (.error e)) (exec x s).2 := rfl
    rw [hmatch]
    rcases exec x s with ⟨e | a, t⟩
    · dsimp only
      cases caught e <;> rfl
    · rfl
  unfold wp at hx ⊢
  rw [hexec]
  rcases hend : exec x s with ⟨e | a, t⟩
  · rw [hend] at hx
    dsimp only
    cases hc : caught e with
    | none => exact herror e t hc hx
    | some d => exact hcaught e d t hc hx
  · rw [hend] at hx
    exact hok a t hx

theorem wp_ite {p : Prop} [Decidable p] {x y : Procedure σ ε α} (hx : p → wp x Q s)
    (hy : ¬ p → wp y Q s) : wp (if p then x else y) Q s := by
  split
  · exact hx ‹_›
  · exact hy ‹_›

end Rules

/-! ## Loops -/

/-- An assertion for each end. -/
def ends (P : α → σ → Prop) (E : ε → σ → Prop) : Except ε α → σ → Prop
  | .ok a => P a
  | .error e => E e

/-- What each item of a list keeps, the loop over the list keeps. It ends early
where an item fails. -/
theorem wp_forM {P : σ → Prop} {E : ε → σ → Prop} {step : α → Procedure σ ε PUnit} {s : σ}
    (as : List α) (hstep : ∀ a ∈ as, ∀ t, P t → wp (step a) (ends (fun _ => P) E) t) (h : P s) :
    wp (as.forM step) (ends (fun _ => P) E) s := by
  induction as generalizing s with
  | nil => exact h
  | cons a as ih =>
    change wp (step a >>= fun _ => as.forM step) _ s
    refine wp_bind (hstep a List.mem_cons_self s h) ?_ fun e t ht => ht
    intro _ t ht
    exact ih (fun b hb => hstep b (List.mem_cons_of_mem _ hb)) ht

end Procedure
