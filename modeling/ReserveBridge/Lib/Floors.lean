-- SUMMARY: Floored multiplications and divisions of natural numbers, one after another, and how far the result falls short of the exact value.
import Mathlib.Data.Nat.Cast.Order.Field
import Mathlib.Tactic.Ring
import Mathlib.Tactic.Linarith
import Mathlib.Tactic.Positivity

/-!
# Floored quotients

A chain of floored quotients stays below the exact value. Every quotient scales
the error of the steps before it and adds less than one.
-/

namespace Floors

variable {K : Type*} [Field K] [LinearOrder K] [IsStrictOrderedRing K]

/-- `p` does not exceed `x`, and is less than `e` below it. -/
structure FallsShort (x e : K) (p : ℕ) : Prop where
  le : (p : K) ≤ x
  sub_lt : x - p < e

namespace FallsShort
variable {x e : K} {p : ℕ}

omit [IsStrictOrderedRing K] in
theorem mono {e' : K} (h : FallsShort x e p) (he : e ≤ e') : FallsShort x e' p :=
  ⟨h.le, h.sub_lt.trans_le he⟩

/-- One floored quotient of an exact product. -/
theorem quotient (n m : ℕ) {d : ℕ} (hd : 0 < d) :
    FallsShort ((n : K) * (m / d)) 1 (n * m / d) := by
  have hcast : (n : K) * (m / d) = ((n * m : ℕ) : K) / d := by
    rw [Nat.cast_mul, mul_div_assoc]
  have hpos : (0 : K) < d := Nat.cast_pos.mpr hd
  rw [hcast]
  constructor
  · exact Nat.cast_div_le
  · rw [sub_lt_iff_lt_add, div_lt_iff₀ hpos]
    have hlt : n * m < (1 + n * m / d) * d := by
      rw [Nat.add_comm, Nat.mul_comm _ d]
      exact Nat.lt_mul_div_succ (n * m) hd
    exact_mod_cast hlt

/-- A floored quotient after a chain. -/
theorem mul_div (h : FallsShort x e p) (m : ℕ) {d : ℕ} (hd : 0 < d) :
    FallsShort (x * (m / d)) (e * (m / d) + 1) (p * m / d) := by
  have hfactor : (0 : K) ≤ (m : K) / d := div_nonneg (Nat.cast_nonneg m) (Nat.cast_nonneg d)
  have hquotient : FallsShort ((p : K) * (m / d)) 1 (p * m / d) := quotient p m hd
  constructor
  · exact hquotient.le.trans (mul_le_mul_of_nonneg_right h.le hfactor)
  · calc x * (m / d) - (p * m / d : ℕ)
        = (x - p) * (m / d) + ((p : K) * (m / d) - (p * m / d : ℕ)) := by ring
      _ < e * (m / d) + 1 :=
        add_lt_add_of_le_of_lt (mul_le_mul_of_nonneg_right h.sub_lt.le hfactor) hquotient.sub_lt

/-- A multiplication after a chain is exact. -/
theorem mul (h : FallsShort x e p) {m : ℕ} (hm : 0 < m) :
    FallsShort (x * m) (e * m) (p * m) := by
  have hpos : (0 : K) < m := Nat.cast_pos.mpr hm
  constructor
  · rw [Nat.cast_mul]
    exact mul_le_mul_of_nonneg_right h.le hpos.le
  · rw [Nat.cast_mul, ← sub_mul]
    exact mul_lt_mul_of_pos_right h.sub_lt hpos

end FallsShort

end Floors
