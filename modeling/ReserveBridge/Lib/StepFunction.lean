-- SUMMARY: Step functions over integer times given by their steps, newest first: the value in force, the area over an interval, how far back the steps reach without a gap, and what may be forgotten of them.
import Mathlib

/-!
# Step functions

A step is in force from its time on until the next one is. The steps are kept
newest first. An evaluation looks at an interval, and back from the newest step
for as long as no gap between two steps is too long. Steps that are older than
what it reaches can be forgotten.
-/

namespace StepFunction

variable {α : Type} (time : α → ℤ) (value : α → ℕ)

/-- Newest first. -/
def Ordered (l : List α) : Prop := l.Pairwise fun s older => time older < time s

/-- The value in force at a time, or nothing before the first step. -/
def valueAt : List α → ℤ → ℕ
  | [], _ => 0
  | s :: older, t => if time s ≤ t then value s else valueAt older t

/-- The area over `[a, b)` under the steps, the newest of which ends at `next`. -/
def area (a b : ℤ) : ℤ → List α → ℕ
  | _, [] => 0
  | next, s :: older => value s * (min next b - max (time s) a).toNat + area a b (time s) older

/-- How far back from `newer` the steps go with no gap above `maxGap`. -/
def reach (maxGap : ℤ) : ℤ → List α → ℤ
  | newer, [] => newer
  | newer, s :: older => if maxGap < newer - time s then newer else reach maxGap (time s) older

/-- No two steps are apart, one after the other, of which the newer is after `a`. -/
def Gapless (maxGap a : ℤ) (l : List α) : Prop :=
  ∀ pre s older post, l = pre ++ s :: older :: post → a < time s → time s - time older ≤ maxGap

variable {time value} {l kept : List α} {s : α} {a b next newer maxGap : ℤ}

theorem Ordered.head (h : Ordered time (s :: l)) : ∀ o ∈ l, time o < time s :=
  fun _ ho => List.rel_of_pairwise_cons h ho

theorem Ordered.tail (h : Ordered time (s :: l)) : Ordered time l := h.of_cons

/-! ## The area is a sum -/

theorem card_Ico_max (m : ℤ) : (Finset.Ico (max a (time s)) m).card = (m - max (time s) a).toNat := by
  rw [Int.card_Ico, max_comm]

theorem area_eq_sum (hl : Ordered time l) (hnext : ∀ s ∈ l, time s ≤ next) :
    area time value a b next l = ∑ t ∈ Finset.Ico a (min next b), valueAt time value l t := by
  induction l generalizing next with
  | nil => simp [area, valueAt]
  | cons s l ih =>
    have hs : time s ≤ next := hnext s List.mem_cons_self
    have hafter : (Finset.Ico a (min next b)).filter (fun t => time s ≤ t) =
        Finset.Ico (max a (time s)) (min next b) := by
      ext t
      simp only [Finset.mem_filter, Finset.mem_Ico]
      omega
    have hbefore : (Finset.Ico a (min next b)).filter (fun t => ¬ time s ≤ t) =
        Finset.Ico a (min (time s) b) := by
      ext t
      simp only [Finset.mem_filter, Finset.mem_Ico]
      omega
    -- the newest step from its time on, and the older ones before
    simp only [area, valueAt]
    rw [Finset.sum_ite, hafter, hbefore, Finset.sum_const, card_Ico_max,
      ih hl.tail fun o ho => (hl.head o ho).le, smul_eq_mul, mul_comm]

/-- The mean of a step function lies between its bounds. -/
theorem mean_bounds {lo hi : ℕ} (hab : a < b)
    (h : ∀ t, a ≤ t → t < b → lo ≤ valueAt time value l t ∧ valueAt time value l t ≤ hi) :
    lo ≤ (∑ t ∈ Finset.Ico a b, valueAt time value l t) / (b - a).toNat ∧
      (∑ t ∈ Finset.Ico a b, valueAt time value l t) / (b - a).toNat ≤ hi := by
  have hpos : 0 < (b - a).toNat := by omega
  have hlo : (b - a).toNat * lo ≤ ∑ t ∈ Finset.Ico a b, valueAt time value l t := by
    have hcard := Finset.card_nsmul_le_sum (Finset.Ico a b) (valueAt time value l) lo
      fun t ht => (h t (Finset.mem_Ico.mp ht).1 (Finset.mem_Ico.mp ht).2).1
    rwa [Int.card_Ico, smul_eq_mul] at hcard
  have hhi : ∑ t ∈ Finset.Ico a b, valueAt time value l t ≤ (b - a).toNat * hi := by
    have hcard := Finset.sum_le_card_nsmul (Finset.Ico a b) (valueAt time value l) hi
      fun t ht => (h t (Finset.mem_Ico.mp ht).1 (Finset.mem_Ico.mp ht).2).2
    rwa [Int.card_Ico, smul_eq_mul] at hcard
  exact ⟨(Nat.le_div_iff_mul_le hpos).mpr (mul_comm lo _ ▸ hlo), Nat.div_le_of_le_mul hhi⟩

/-- In a function whose values are bounded, each value in force is. -/
theorem valueAt_le {hi : ℕ} (h : ∀ s ∈ l, value s ≤ hi) (t : ℤ) : valueAt time value l t ≤ hi := by
  induction l with
  | nil => exact Nat.zero_le hi
  | cons s l ih =>
    unfold valueAt
    split_ifs
    · exact h s List.mem_cons_self
    · exact ih fun o ho => h o (List.mem_cons_of_mem s ho)

/-! ## Gaps -/

theorem reach_le (maxGap : ℤ) (hl : Ordered time l) (hnewer : ∀ s ∈ l, time s ≤ newer) :
    reach time maxGap newer l ≤ newer := by
  induction l generalizing newer with
  | nil => exact le_rfl
  | cons s l ih =>
    unfold reach
    split_ifs
    · exact le_rfl
    · exact (ih hl.tail fun o ho => (hl.head o ho).le).trans (hnewer s List.mem_cons_self)

theorem gapless_singleton (s : α) : Gapless time maxGap a [s] := by
  intro pre o older post heq
  have hlen := congrArg List.length heq
  simp at hlen
  omega

theorem gapless_cons_cons {s' : α} :
    Gapless time maxGap a (s :: s' :: l) ↔
      (a < time s → time s - time s' ≤ maxGap) ∧ Gapless time maxGap a (s' :: l) := by
  constructor
  · intro h
    refine ⟨h [] s s' l rfl, fun pre o older post heq => ?_⟩
    exact h (s :: pre) o older post (congrArg (s :: ·) heq)
  · rintro ⟨hs, hl⟩ pre o older post heq
    cases pre with
    | nil =>
      obtain ⟨rfl, rfl, rfl⟩ := by simpa using heq
      exact hs
    | cons p pre =>
      exact hl pre o older post (List.cons.inj heq).2

/-- The steps reach back to `a` if and only if one of them is as old, and no two
are apart before. -/
theorem reach_le_iff (hl : Ordered time (s :: l)) :
    reach time maxGap (time s) l ≤ a ↔
      (∃ o ∈ s :: l, time o ≤ a) ∧ Gapless time maxGap a (s :: l) := by
  induction l generalizing s with
  | nil => simp [reach, gapless_singleton]
  | cons s' l ih =>
    rw [gapless_cons_cons]
    by_cases hs : time s ≤ a
    · have hreach := reach_le maxGap hl.tail fun o ho => (hl.head o ho).le
      have hgapless : Gapless time maxGap a (s' :: l) := by
        intro pre o older post heq ho
        have hlt := hl.head o (by rw [heq]; simp)
        omega
      exact iff_of_true (hreach.trans hs) ⟨⟨s, List.mem_cons_self, hs⟩, fun h => by omega, hgapless⟩
    · have hreaches : (∃ o ∈ s :: s' :: l, time o ≤ a) ↔ ∃ o ∈ s' :: l, time o ≤ a := by
        simp [hs]
      unfold reach
      split_ifs with hgap
      · exact iff_of_false hs fun h => by have := h.2.1 (by omega); omega
      · rw [ih hl.tail, hreaches]
        exact and_congr_right fun _ => (and_iff_right fun _ => by omega).symm

/-! ## What may be forgotten -/

/-- Steps that end before an interval add nothing to its area. -/
theorem area_eq_zero (hl : Ordered time l) (hnext : ∀ s ∈ l, time s ≤ next) (ha : next ≤ a) :
    area time value a b next l = 0 := by
  rw [area_eq_sum hl hnext, Finset.Ico_eq_empty (by omega), Finset.sum_empty]

theorem area_append {old : List α} (hl : Ordered time (l ++ old)) (hreach : ∃ s ∈ l, time s ≤ a) :
    area time value a b next (l ++ old) = area time value a b next l := by
  induction l generalizing next with
  | nil => simp at hreach
  | cons s l ih =>
    rw [List.cons_append] at hl ⊢
    unfold area
    congr 1
    by_cases hs : ∃ o ∈ l, time o ≤ a
    · exact ih hl.tail hs
    · -- the oldest step that is kept is in force when the interval begins
      have hle : time s ≤ a := by
        obtain ⟨o, ho, hle⟩ := hreach
        rcases List.mem_cons.mp ho with rfl | ho
        · exact hle
        · exact absurd ⟨o, ho, hle⟩ hs
      rw [area_eq_zero hl.tail (fun o ho => (hl.head o ho).le) hle,
        area_eq_zero (hl.tail.sublist (List.sublist_append_left l old))
          (fun o ho => (hl.head o (List.mem_append_left old ho)).le) hle]

/-- Forgotten steps that are older than the interval by the gap that is allowed
do not change how far back the rest reaches, where that is after its start. -/
theorem reach_append {old : List α} (hl : Ordered time (l ++ old)) (hnewer : ∀ s ∈ l ++ old, time s ≤ newer)
    (hold : ∀ s ∈ old, time s ≤ a - maxGap) (hgap : 0 ≤ maxGap) :
    reach time maxGap newer (l ++ old) = reach time maxGap newer l ∨
      reach time maxGap newer (l ++ old) ≤ a ∧ reach time maxGap newer l ≤ a := by
  induction l generalizing newer with
  | nil =>
    cases old with
    | nil => exact .inl rfl
    | cons o old =>
      have ho := hold o List.mem_cons_self
      simp only [List.nil_append] at hl hnewer ⊢
      unfold reach
      split_ifs with h
      · exact .inl rfl
      · have hle := reach_le maxGap hl.tail fun o' ho' => (hl.head o' ho').le
        exact .inr ⟨by omega, by omega⟩
  | cons s l ih =>
    rw [List.cons_append] at hl hnewer ⊢
    unfold reach
    split_ifs with h
    · exact .inl rfl
    · exact ih hl.tail fun o ho => (hl.head o ho).le

end StepFunction
