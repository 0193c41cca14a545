-- SUMMARY: Bisection: the search for the last number that satisfies a predicate, its boundary, and that the boundary is exact where the predicate holds of everything below what satisfies it.
import Mathlib.Data.Nat.Notation
import Mathlib.Tactic.Ring

/-!
# Bisection

The loop halves an interval whose lower end satisfies a predicate and whose upper
end does not. It ends at neighbours of which the first satisfies the predicate.
-/

namespace Bisection

variable {fits : ℕ → Bool} {rounds lo hi : ℕ}

/-- The lower of the two neighbours, after enough rounds. -/
def search (fits : ℕ → Bool) : ℕ → ℕ → ℕ → ℕ
  | 0, lo, _ => lo
  | rounds + 1, lo, hi =>
    if hi - lo ≤ 1 then lo
    else
      let mid := lo + (hi - lo) / 2
      if fits mid then search fits rounds mid hi else search fits rounds lo mid

/-- Each round halves the interval, and keeps that one end satisfies the predicate
and the other does not. -/
theorem search_boundary (hlo : fits lo = true) (hhi : fits hi = false) (hlt : lo < hi)
    (hwidth : hi - lo ≤ 2 ^ rounds) :
    fits (search fits rounds lo hi) = true ∧ fits (search fits rounds lo hi + 1) = false ∧
      lo ≤ search fits rounds lo hi ∧ search fits rounds lo hi < hi := by
  induction rounds generalizing lo hi with
  | zero =>
    have hnext : hi = lo + 1 := by omega
    subst hnext
    exact ⟨hlo, hhi, le_refl _, hlt⟩
  | succ rounds ih =>
    rw [pow_succ] at hwidth
    rw [search]
    dsimp only
    split_ifs with hnear hmid
    · have hnext : hi = lo + 1 := by omega
      subst hnext
      exact ⟨hlo, hhi, le_refl _, hlt⟩
    · obtain ⟨hfits, hnot, hle, hless⟩ := ih hmid hhi (by omega) (by omega)
      exact ⟨hfits, hnot, by omega, hless⟩
    · obtain ⟨hfits, hnot, hle, hless⟩ := ih hlo (Bool.eq_false_iff.mpr hmid) (by omega) (by omega)
      exact ⟨hfits, hnot, hle, by omega⟩

/-- Where, in the interval, the predicate holds of everything below what satisfies
it, it holds of the numbers up to the result and of no other. -/
theorem fits_iff_le_search (hdown : ∀ m n, m ≤ n → n ≤ hi → fits n = true → fits m = true)
    (hlo : fits lo = true) (hhi : fits hi = false) (hlt : lo < hi) (hwidth : hi - lo ≤ 2 ^ rounds)
    {n : ℕ} (hn : n ≤ hi) : fits n = true ↔ n ≤ search fits rounds lo hi := by
  obtain ⟨hfits, hnot, -, hless⟩ := search_boundary hlo hhi hlt hwidth
  constructor
  · intro hsat
    by_contra hgt
    rw [hdown _ n (by omega : search fits rounds lo hi + 1 ≤ n) hn hsat] at hnot
    cases hnot
  · intro hle
    exact hdown n _ hle hless.le hfits

end Bisection
