-- SUMMARY: Arithmetic on two limbs over an arbitrary base: the schoolbook product with its carries, and one step of a binary long division.
import Mathlib.Tactic.Ring
import Mathlib.Tactic.Linarith

/-!
# Limbs

A number of two limbs is `high * B + low`. Its schoolbook product takes the four
products of limbs and one sum of the middle column. A binary long division takes
the bits of the dividend from the top, and its state is the quotient and the
remainder of the prefix read so far.
-/

namespace Limbs

/-! ## The product -/

section Product
variable {B : ℕ}

/-- The middle column: the carry of the low product, and the low halves of the
cross products. -/
def middle (B lowLow lowHigh highLow : ℕ) : ℕ := lowLow / B + lowHigh % B + highLow % B

/-- The upper two limbs. -/
def upper (B lowLow lowHigh highLow highHigh : ℕ) : ℕ :=
  highHigh + lowHigh / B + highLow / B + middle B lowLow lowHigh highLow / B

theorem product_eq (ah al bh bl : ℕ) :
    (ah * B + al) * (bh * B + bl) =
      upper B (al * bl) (al * bh) (ah * bl) (ah * bh) * (B * B)
        + (middle B (al * bl) (al * bh) (ah * bl) % B * B + al * bl % B) := by
  have hmiddle := Nat.div_add_mod (middle B (al * bl) (al * bh) (ah * bl)) B
  have hll := Nat.div_add_mod (al * bl) B
  have hlh := Nat.div_add_mod (al * bh) B
  have hhl := Nat.div_add_mod (ah * bl) B
  calc (ah * B + al) * (bh * B + bl)
      = ah * bh * (B * B) + (al * bh + ah * bl) * B + al * bl := by ring
    _ = (ah * bh + al * bh / B + ah * bl / B) * (B * B)
          + middle B (al * bl) (al * bh) (ah * bl) * B + al * bl % B := by
        nth_rewrite 1 [← hlh, ← hhl, ← hll]
        rw [middle]
        ring
    _ = _ := by
        nth_rewrite 1 [← hmiddle]
        rw [upper]
        ring

theorem middle_le {lowLow lowHigh highLow : ℕ} (h : lowLow < B * B) :
    middle B lowLow lowHigh highLow ≤ 3 * (B - 1) := by
  have hB : 0 < B := Nat.pos_of_ne_zero fun h0 => by simp [h0] at h
  have hll : lowLow / B < B := Nat.div_lt_of_lt_mul h
  have hlh := Nat.mod_lt lowHigh hB
  have hhl := Nat.mod_lt highLow hB
  rw [middle]
  omega

/-- The upper limbs of a product fit two limbs. -/
theorem upper_lt {ah al bh bl : ℕ} (hah : ah < B) (hal : al < B) (hbh : bh < B) (hbl : bl < B) :
    upper B (al * bl) (al * bh) (ah * bl) (ah * bh) < B * B := by
  have hfactor {h l : ℕ} (hh : h < B) (hl : l < B) : h * B + l < B * B :=
    calc h * B + l < h * B + B := Nat.add_lt_add_left hl _
      _ = (h + 1) * B := by ring
      _ ≤ B * B := Nat.mul_le_mul_right B hh
  have hproduct : (ah * B + al) * (bh * B + bl) < B * B * (B * B) :=
    Nat.mul_lt_mul'' (hfactor hah hal) (hfactor hbh hbl)
  rw [product_eq] at hproduct
  exact Nat.lt_of_mul_lt_mul_right ((Nat.le_add_right _ _).trans_lt hproduct)

end Product

/-! ## The long division -/

section Division
variable {n d i : ℕ}

/-- The prefix of the bits from `i` on, and the bit below it. -/
theorem prefix_succ (n i : ℕ) : n / 2 ^ i = 2 * (n / 2 ^ (i + 1)) + (n.testBit i).toNat := by
  rw [Nat.toNat_testBit, pow_succ, ← Nat.div_div_eq_div_mul]
  omega

/-- The partial remainder after the bit `i`, before the divisor is taken off. -/
def partialRemainder (n d i : ℕ) : ℕ := 2 * (n / 2 ^ (i + 1) % d) + (n.testBit i).toNat

theorem prefix_eq (n d i : ℕ) :
    n / 2 ^ i = d * (2 * (n / 2 ^ (i + 1) / d)) + partialRemainder n d i := by
  have hpre := Nat.div_add_mod (n / 2 ^ (i + 1)) d
  calc n / 2 ^ i = 2 * (n / 2 ^ (i + 1)) + (n.testBit i).toNat := prefix_succ n i
    _ = 2 * (d * (n / 2 ^ (i + 1) / d) + n / 2 ^ (i + 1) % d) + (n.testBit i).toNat := by
        rw [hpre]
    _ = d * (2 * (n / 2 ^ (i + 1) / d)) + partialRemainder n d i := by
        rw [partialRemainder]
        ring

/-- One bit past the divisor. -/
theorem partialRemainder_lt (hd : 0 < d) : partialRemainder n d i < 2 * d := by
  have hr := Nat.mod_lt (n / 2 ^ (i + 1)) hd
  have hbit := (n.testBit i).toNat_le
  rw [partialRemainder]
  omega

theorem step_of_lt (hlt : partialRemainder n d i < d) :
    n / 2 ^ i % d = partialRemainder n d i ∧ n / 2 ^ i / d = 2 * (n / 2 ^ (i + 1) / d) := by
  have hd : 0 < d := Nat.zero_lt_of_lt hlt
  rw [prefix_eq n d i, Nat.mul_add_mod, Nat.mod_eq_of_lt hlt, Nat.mul_add_div hd,
    Nat.div_eq_of_lt hlt]
  exact ⟨rfl, rfl⟩

theorem step_of_le (hd : 0 < d) (hle : d ≤ partialRemainder n d i) :
    n / 2 ^ i % d = partialRemainder n d i - d ∧
      n / 2 ^ i / d = 2 * (n / 2 ^ (i + 1) / d) + 1 := by
  have hlt : partialRemainder n d i - d < d := by
    have := partialRemainder_lt (n := n) (i := i) hd
    omega
  have hpre : n / 2 ^ i =
      d * (2 * (n / 2 ^ (i + 1) / d) + 1) + (partialRemainder n d i - d) := by
    rw [prefix_eq n d i, Nat.mul_add_one]
    omega
  rw [hpre, Nat.mul_add_mod, Nat.mod_eq_of_lt hlt, Nat.mul_add_div hd, Nat.div_eq_of_lt hlt]
  exact ⟨rfl, rfl⟩

/-- A bit of the quotient is a lower bound of it. -/
theorem pow_le_quotient (hd : 0 < d) (hle : d ≤ partialRemainder n d i) : 2 ^ i ≤ n / d := by
  have hone : 1 ≤ n / 2 ^ i / d := by
    rw [(step_of_le hd hle).2]
    omega
  rw [Nat.div_div_eq_div_mul, Nat.mul_comm, ← Nat.div_div_eq_div_mul] at hone
  exact (Nat.one_le_div_iff (by positivity)).mp hone

end Division

end Limbs
