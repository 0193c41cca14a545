-- SUMMARY: Computations that index, slice and add without a check: they return, refuse or panic, and the lemmas that compare one with a computation that cannot panic.
import ReserveBridge.Lib.Guard
import Mathlib.Algebra.Ring.Nat

/-!
# Reads within bounds

An index out of bounds, a slice out of bounds or a sum that does not fit panics: the
computation neither returns nor refuses. A computation with these in the places
where the code has them does not panic when it agrees with a computation in
`Except`. The lemmas show this statement by statement.
-/

namespace Bounds
open Guard

/-- A computation that may panic, which is `none`. -/
abbrev Checked (ε : Type) := ExceptT ε Option

namespace Checked

variable {ε α β : Type}

def check (c : Prop) [Decidable c] (e : ε) : Checked ε Unit := ExceptT.mk (some (require c e))

def found (o : Option α) (e : ε) : Checked ε α := ExceptT.mk (some (orFail o e))

/-- What is read, if it is there. -/
def read (o : Option α) : Checked ε α := ExceptT.lift o

theorem bind_run {x : Checked ε α} {y : Except ε α} {f : α → Checked ε β} {g : α → Except ε β}
    (hx : x.run = some y) (h : ∀ a, y = .ok a → (f a).run = some (g a)) :
    (x >>= f).run = some (y >>= g) := by
  rw [ExceptT.run_bind, hx]
  cases y with
  | error e => rfl
  | ok a => exact h a rfl

theorem check_bind {c : Prop} [Decidable c] {e : ε} {f : Unit → Checked ε α}
    {g : Unit → Except ε α} (h : c → (f ()).run = some (g ())) :
    (check c e >>= f).run = some (require c e >>= g) :=
  bind_run rfl fun _ hc => h (require_eq_ok.mp hc)

theorem found_bind {o : Option α} {e : ε} {f : α → Checked ε β} {g : α → Except ε β}
    (h : ∀ a, o = some a → (f a).run = some (g a)) :
    (found o e >>= f).run = some (orFail o e >>= g) :=
  bind_run rfl fun a ho => h a (orFail_eq_ok.mp ho)

/-- A read of what is there is no step of the other computation. -/
theorem read_bind {o : Option α} {a : α} {f : α → Checked ε β} {x : Except ε β}
    (ho : o = some a) (h : (f a).run = some x) : (read o >>= f).run = some x := by
  have hread : read o = (pure a : Checked ε α) := by
    rw [ho]
    rfl
  rw [hread, pure_bind, h]

/-- A search that cannot fail is none either. -/
theorem found_some_bind {o : Option α} {e : ε} {a : α} {f : α → Checked ε β} {x : Except ε β}
    (ho : o = some a) (h : (f a).run = some x) : (found o e >>= f).run = some x := by
  have hfound : found o e = (pure a : Checked ε α) := by
    rw [ho]
    rfl
  rw [hfound, pure_bind, h]

end Checked

/-- A sum of two `usize`, if it fits. -/
def addUsize (a b : ℕ) : Option ℕ := if a + b < 2 ^ 64 then some (a + b) else none

/-- A product of two `usize`, if it fits. -/
def mulUsize (a b : ℕ) : Option ℕ := if a * b < 2 ^ 64 then some (a * b) else none

theorem addUsize_eq {a b : ℕ} (h : a + b < 2 ^ 64) : addUsize a b = some (a + b) := if_pos h

theorem mulUsize_eq {a b : ℕ} (h : a * b < 2 ^ 64) : mulUsize a b = some (a * b) := if_pos h

end Bounds
