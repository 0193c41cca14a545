-- SUMMARY: Guarded computations in `Except`: `require`, lifting an `Option`, and the inversion lemmas that read a successful computation back as the list of its guards.
import Mathlib.Data.List.Forall2

/-!
# Guarded computations

A handler that checks its preconditions one after another and then produces a
new state is an `Except` computation. The lemmas of this file turn "the
computation succeeded" into the conjunction of what it checked, so that no
later proof unfolds a `do` block by hand.
-/

namespace Guard

variable {ε α β : Type}

/-- Fail with `e` unless `c` holds. -/
def require (c : Prop) [Decidable c] (e : ε) : Except ε Unit :=
  if c then .ok () else .error e

/-- The value of an option, or the failure `e` when there is none. -/
def orFail (o : Option α) (e : ε) : Except ε α :=
  match o with
  | some a => .ok a
  | none => .error e

@[simp] theorem bind_eq_ok {x : Except ε α} {f : α → Except ε β} {b : β} :
    (x >>= f) = .ok b ↔ ∃ a, x = .ok a ∧ f a = .ok b := by
  cases x with
  | error e => simp [bind, Except.bind]
  | ok a => simp [bind, Except.bind]

/-- A check returns nothing: drop the witness `bind_eq_ok` introduces for it. -/
@[simp] theorem exists_unit {p : Unit → Prop} : (∃ u, p u) ↔ p () :=
  ⟨fun ⟨(), h⟩ => h, fun h => ⟨(), h⟩⟩

@[simp] theorem pure_eq_ok {a b : α} : (pure a : Except ε α) = .ok b ↔ a = b := by
  simp [pure, Except.pure]

@[simp] theorem map_eq_ok {x : Except ε α} {f : α → β} {b : β} :
    f <$> x = .ok b ↔ ∃ a, x = .ok a ∧ f a = b := by
  cases x with
  | error e => simp [Functor.map, Except.map]
  | ok a => simp [Functor.map, Except.map]

@[simp] theorem require_eq_ok {c : Prop} [Decidable c] {e : ε} {u : Unit} :
    require c e = .ok u ↔ c := by
  unfold require
  split <;> simp_all

@[simp] theorem orFail_eq_ok {o : Option α} {e : ε} {a : α} :
    orFail o e = .ok a ↔ o = some a := by
  cases o <;> simp [orFail]

/-- The success of a computation does not depend on how its failures are named. -/
@[simp] theorem mapError_eq_ok {ε' : Type} {x : Except ε α} {f : ε → ε'} {a : α} :
    x.mapError f = .ok a ↔ x = .ok a := by
  cases x with
  | error e =>
    constructor
    · intro h
      cases h
    · intro h
      cases h
  | ok b =>
    constructor
    · intro h
      cases h
      rfl
    · intro h
      cases h
      rfl

/-- Keep only the outcome of a successful computation. -/
@[simp] theorem toOption_eq_some {x : Except ε α} {a : α} :
    x.toOption = some a ↔ x = .ok a := by
  cases x <;> simp [Except.toOption]

/-! ## Failure -/

theorem bind_eq_error {x : Except ε α} {f : α → Except ε β} {e : ε} :
    (x >>= f) = .error e ↔ x = .error e ∨ ∃ a, x = .ok a ∧ f a = .error e := by
  cases x with
  | error e' => simp [bind, Except.bind]
  | ok a => simp [bind, Except.bind]

theorem require_eq_error {c : Prop} [Decidable c] {e e' : ε} :
    require c e = .error e' ↔ ¬ c ∧ e = e' := by
  unfold require
  split <;> simp_all

/-- Two checks of one kind, one after the other. -/
theorem require_and {c d : Prop} [Decidable c] [Decidable d] {e : ε} :
    require (c ∧ d) e = (require c e >>= fun _ => require d e) := by
  by_cases hc : c
  · simp [require, hc, bind, Except.bind]
  · simp [require, hc, bind, Except.bind]

theorem orFail_eq_error {o : Option α} {e e' : ε} :
    orFail o e = .error e' ↔ o = none ∧ e = e' := by
  cases o <;> simp [orFail]

/-! ## Success -/

/-- The computation returns something. -/
def Succeeds (x : Except ε α) : Prop := ∃ a, x = .ok a

@[simp] theorem succeeds_bind {x : Except ε α} {f : α → Except ε β} :
    Succeeds (x >>= f) ↔ ∃ a, x = .ok a ∧ Succeeds (f a) := by
  constructor
  · rintro ⟨b, hb⟩
    obtain ⟨a, ha, hf⟩ := bind_eq_ok.mp hb
    exact ⟨a, ha, b, hf⟩
  · rintro ⟨a, ha, b, hf⟩
    exact ⟨b, bind_eq_ok.mpr ⟨a, ha, hf⟩⟩

@[simp] theorem succeeds_pure {a : α} : Succeeds (pure a : Except ε α) := ⟨a, rfl⟩

@[simp] theorem succeeds_ok {a : α} : Succeeds (.ok a : Except ε α) := ⟨a, rfl⟩

/-- A computation succeeds or fails. -/
theorem not_succeeds {x : Except ε α} : ¬ Succeeds x ↔ ∃ e, x = .error e := by
  cases x <;> simp [Succeeds]

/-! ## Lists -/

/-- What every element's computation returns, a successful sweep returns. -/
theorem forall_mem_of_mapM {f : α → Except ε β} {p : β → Prop} (hf : ∀ a b, f a = .ok b → p b)
    {l : List α} {l' : List β} (h : l.mapM f = .ok l') : ∀ b ∈ l', p b := by
  induction l generalizing l' with
  | nil =>
    rw [List.mapM_nil, pure_eq_ok] at h
    subst h
    exact fun b hb => absurd hb List.not_mem_nil
  | cons a l ih =>
    simp only [List.mapM_cons, bind_eq_ok, pure_eq_ok] at h
    obtain ⟨b, hb, bs, hbs, rfl⟩ := h
    rw [List.forall_mem_cons]
    exact ⟨hf a b hb, ih hbs⟩

/-- Checks two lists side by side, with the position of each pair, up to the end of
the shorter one. -/
def checkZip {γ : Type} (check : ℕ → α → γ → Except ε Unit) : ℕ → List α → List γ → Except ε Unit
  | i, a :: as, c :: cs => do
    check i a c
    checkZip check (i + 1) as cs
  | _, _, _ => .ok ()

/-- On lists of one length, every pair is checked. -/
theorem checkZip_eq_ok {γ : Type} {check : ℕ → α → γ → Except ε Unit} {p : α → γ → Prop}
    (hcheck : ∀ i a c, check i a c = .ok () ↔ p a c) {as : List α} {cs : List γ}
    (hlength : as.length = cs.length) {i : ℕ} :
    checkZip check i as cs = .ok () ↔ List.Forall₂ p as cs := by
  induction as generalizing cs i with
  | nil =>
    obtain rfl := List.length_eq_zero_iff.mp hlength.symm
    simp [checkZip]
  | cons a as ih =>
    cases cs with
    | nil => cases hlength
    | cons c cs =>
      rw [List.length_cons, List.length_cons, Nat.succ_inj] at hlength
      simp only [checkZip, bind_eq_ok, exists_unit, hcheck, ih hlength, List.forall₂_cons]

theorem length_of_mapM_option {f : α → Option β} {l : List α} {l' : List β}
    (h : l.mapM f = some l') : l'.length = l.length := by
  induction l generalizing l' with
  | nil =>
    rw [List.mapM_nil] at h
    obtain rfl := Option.some.inj h
    rfl
  | cons a l ih =>
    simp only [List.mapM_cons, Option.bind_eq_bind, Option.bind_eq_some_iff] at h
    obtain ⟨b, -, bs, hbs, h⟩ := h
    obtain rfl := Option.some.inj h
    rw [List.length_cons, List.length_cons, ih hbs]

end Guard
