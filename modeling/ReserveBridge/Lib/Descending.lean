-- SUMMARY: Lists in descending order of an amount: no selection of a given size has a larger sum than the first elements, and divisions of an amount into equal parts.
import Mathlib.Data.List.Perm.Subperm
import Mathlib.Algebra.BigOperators.Group.List.Basic
import Mathlib.Algebra.Order.BigOperators.Group.List
import Mathlib.Algebra.Order.Ring.Nat
import Mathlib.Data.Nat.Notation

/-!
# Selections from a descending list

Where a list is in descending order of an amount, the first `k` elements have
the largest sum of all selections of `k` elements.
-/

namespace Descending

variable {α : Type} {amount : α → ℕ} {l s : List α}

/-- The list is in descending order of the amount. -/
def Sorted (amount : α → ℕ) (l : List α) : Prop := l.Pairwise fun a b => amount b ≤ amount a

/-- The sum of the amounts. -/
def sum (amount : α → ℕ) (l : List α) : ℕ := (l.map amount).sum

@[simp] theorem sum_nil : sum amount [] = 0 := rfl

@[simp] theorem sum_cons {a : α} : sum amount (a :: l) = amount a + sum amount l := by
  simp [sum]

@[simp] theorem sum_append {l' : List α} : sum amount (l ++ l') = sum amount l + sum amount l' := by
  simp [sum]

theorem sum_perm {l' : List α} (h : l.Perm l') : sum amount l = sum amount l' :=
  (h.map amount).sum_eq

/-- An element in front adds at least what it pushes out at the end. -/
theorem sum_take_le_sum_take_cons {a : α} (h : Sorted amount (a :: l)) (k : ℕ) :
    sum amount (l.take k) ≤ sum amount ((a :: l).take k) := by
  obtain ⟨hhead, hsorted⟩ := List.pairwise_cons.mp h
  induction l generalizing a k with
  | nil => simp
  | cons b l ih =>
    cases k with
    | zero => rfl
    | succ k =>
      have hb : amount b ≤ amount a := hhead b List.mem_cons_self
      obtain ⟨hhead', hsorted'⟩ := List.pairwise_cons.mp hsorted
      have hrest := ih hsorted k hhead' hsorted'
      rw [List.take_succ_cons, List.take_succ_cons, sum_cons, sum_cons]
      omega

theorem sum_le_sum_take_of_sublist (h : Sorted amount l) (hs : s.Sublist l) :
    sum amount s ≤ sum amount (l.take s.length) := by
  induction hs with
  | slnil => rfl
  | cons a _ ih => exact (ih h.of_cons).trans (sum_take_le_sum_take_cons h _)
  | cons_cons a _ ih =>
    rw [List.length_cons, List.take_succ_cons, sum_cons, sum_cons]
    exact Nat.add_le_add_left (ih h.of_cons) _

/-- No selection of `k` elements has a larger sum than the first `k`. -/
theorem sum_le_sum_take (h : Sorted amount l) (hs : s.Subperm l) :
    sum amount s ≤ sum amount (l.take s.length) := by
  obtain ⟨s', hperm, hsub⟩ := hs
  rw [← sum_perm hperm, ← hperm.length_eq]
  exact sum_le_sum_take_of_sublist h hsub

end Descending
