-- SUMMARY: The significant digits of a positional numeral, which bound its value, and the floor of a value that powers of the base have moved.
import ReserveBridge.Lib.Radix
import Mathlib.Algebra.Order.Floor.Semifield
import Mathlib.Data.List.TakeWhile

/-!
# Significant digits

What remains of a digit string after its leading zeros. Reading one more digit
either prolongs the leading zeros or the significant digits. A power of the base
moves the point: its floor appends zeros or drops digits.
-/

namespace Radix

variable {b : ℕ} {ds : List ℕ}

/-! ## The significant digits -/

/-- The digits from the first that is not zero on. -/
def significant (ds : List ℕ) : List ℕ := ds.dropWhile (· = 0)

theorem significant_cons_zero (ds : List ℕ) : significant (0 :: ds) = significant ds := rfl

theorem significant_cons_of_ne {d : ℕ} (hd : d ≠ 0) (ds : List ℕ) :
    significant (d :: ds) = d :: ds :=
  List.dropWhile_cons_of_neg (by simpa using hd)

theorem significant_replicate_append (n : ℕ) (ds : List ℕ) :
    significant (List.replicate n 0 ++ ds) = significant ds := by
  induction n with
  | zero => rfl
  | succ n ih =>
    rw [List.replicate_succ, List.cons_append, significant_cons_zero, ih]

theorem significant_append_singleton (ds : List ℕ) (d : ℕ) :
    significant (ds ++ [d]) =
      if significant ds = [] ∧ d = 0 then [] else significant ds ++ [d] := by
  induction ds with
  | nil =>
    by_cases hd : d = 0
    · subst hd
      rfl
    · rw [if_neg fun h => hd h.2]
      exact significant_cons_of_ne hd []
  | cons c ds ih =>
    by_cases hc : c = 0
    · subst hc
      exact ih
    · rw [List.cons_append, significant_cons_of_ne hc, significant_cons_of_ne hc, if_neg]
      · rfl
      · exact fun h => List.cons_ne_nil c ds h.1

theorem value_significant (b : ℕ) (ds : List ℕ) : value b (significant ds) = value b ds := by
  induction ds with
  | nil => rfl
  | cons d ds ih =>
    by_cases hd : d = 0
    · subst hd
      have hvalue : value b (0 :: ds) = value b ds := value_replicate_append 1 ds
      rw [significant_cons_zero, hvalue, ih]
    · rw [significant_cons_of_ne hd]

theorem value_lt (hb : 1 < b) (hds : ∀ d ∈ ds, d < b) :
    value b ds < b ^ (significant ds).length := by
  rw [← value_significant, value, ← List.length_reverse]
  apply Nat.ofDigits_lt_base_pow_length hb
  intro d hd
  exact hds d ((List.dropWhile_sublist _).subset (List.mem_reverse.mp hd))

theorem value_lt_pow_length (hb : 1 < b) (hds : ∀ d ∈ ds, d < b) : value b ds < b ^ ds.length :=
  (value_lt hb hds).trans_le
    (Nat.pow_le_pow_right (Nat.zero_lt_of_lt hb) (List.dropWhile_sublist _).length_le)

theorem length_significant_le_append (ds es : List ℕ) :
    (significant ds).length ≤ (significant (ds ++ es)).length := by
  induction es using List.reverseRecOn with
  | nil => rw [List.append_nil]
  | append_singleton es e ih =>
    rw [← List.append_assoc, significant_append_singleton]
    split_ifs with h
    · rwa [h.1] at ih
    · rw [List.length_append]
      exact ih.trans (Nat.le_add_right _ _)

theorem value_eq_zero_iff (hb : 0 < b) : value b ds = 0 ↔ significant ds = [] := by
  induction ds using List.reverseRecOn with
  | nil => simp [significant]
  | append_singleton ds d ih =>
    rw [value_append_singleton, significant_append_singleton, Nat.add_eq_zero_iff, Nat.mul_eq_zero,
      or_iff_left hb.ne', ih]
    split_ifs with h
    · exact iff_of_true h rfl
    · exact iff_of_false h (by simp)

/-! ## Moving the point -/

section Floor
variable {K : Type*} [Field K] [LinearOrder K] [IsStrictOrderedRing K] [FloorSemiring K]

theorem floor_mul_zpow_of_nonneg {k : ℤ} (n : ℕ) (hk : 0 ≤ k) :
    ⌊(n : K) * (b : K) ^ k⌋₊ = n * b ^ k.toNat := by
  obtain ⟨m, rfl⟩ := Int.eq_ofNat_of_zero_le hk
  rw [zpow_natCast, Int.toNat_natCast]
  exact_mod_cast Nat.floor_natCast (n * b ^ m)

theorem floor_mul_zpow_of_nonpos {k : ℤ} (n : ℕ) (hk : k ≤ 0) :
    ⌊(n : K) * (b : K) ^ k⌋₊ = n / b ^ (-k).toNat := by
  obtain ⟨m, hm⟩ := Int.eq_ofNat_of_zero_le (neg_nonneg.mpr hk)
  obtain rfl : k = -m := by omega
  rw [zpow_neg, zpow_natCast, neg_neg, Int.toNat_natCast, ← div_eq_mul_inv]
  exact_mod_cast Nat.floor_div_eq_div (K := K) n (b ^ m)

end Floor

end Radix
