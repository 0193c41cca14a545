-- SUMMARY: Stores of keyed records: lookup, creation, update in place, removal by key, numbered records, and the sum of an amount over all records.
import Mathlib.Algebra.Ring.Nat
import Mathlib.Data.List.Nodup
import Mathlib.Algebra.BigOperators.Group.List.Basic
import Mathlib.Algebra.Order.Group.Int
import Mathlib.Algebra.BigOperators.Group.List.Lemmas
import Mathlib.Tactic.Abel
import Mathlib.Data.Nat.Notation

/-!
# Create-once stores

A record lives under the key it was created with. Creation fails when the key
is taken, and records are updated in place. The records are kept in the order of
their creation.
-/

/-- Records by key, in order of creation. No key occurs twice. -/
structure Store (κ ν : Type) where
  entries : List (κ × ν)
  nodup : (entries.map Prod.fst).Nodup

namespace Store

variable {κ ν : Type}

def empty : Store κ ν := ⟨[], List.nodup_nil⟩

/-- The keys in use, in order of creation. -/
def keys (s : Store κ ν) : List κ := s.entries.map Prod.fst

/-- The sum of an amount over all records. -/
def total (s : Store κ ν) (amount : ν → ℕ) : ℕ := (s.entries.map fun e => amount e.2).sum

variable [DecidableEq κ]

def get? (s : Store κ ν) (k : κ) : Option ν :=
  (s.entries.find? fun e => e.1 = k).map Prod.snd

/-- Create the record `v` under `k`, unless the key is taken. -/
def init (s : Store κ ν) (k : κ) (v : ν) : Option (Store κ ν) :=
  if h : k ∈ s.keys then none
  else some ⟨s.entries ++ [(k, v)], by
    rw [List.map_append, List.nodup_append]
    refine ⟨s.nodup, by simp, ?_⟩
    rintro a ha b hb rfl
    simp only [List.map_cons, List.map_nil, List.mem_singleton] at hb
    exact h (hb ▸ ha)⟩

/-- Replace the record under `k` by its image. -/
def modify (s : Store κ ν) (k : κ) (f : ν → ν) : Store κ ν :=
  ⟨s.entries.map fun e => if e.1 = k then (e.1, f e.2) else e, by
    have hkeys : (s.entries.map fun e => if e.1 = k then (e.1, f e.2) else e).map Prod.fst =
        s.entries.map Prod.fst := by
      rw [List.map_map]
      refine List.map_congr_left fun e _ => ?_
      by_cases he : e.1 = k <;> simp [he]
    rw [hkeys]
    exact s.nodup⟩

variable {s s' : Store κ ν} {k k' : κ} {v v' : ν}

theorem get?_isSome : (s.get? k).isSome ↔ k ∈ s.keys := by
  simp [get?, keys]

theorem get?_eq_none : s.get? k = none ↔ k ∉ s.keys := by
  rw [← get?_isSome, Option.not_isSome_iff_eq_none]

theorem mem_of_get? (h : s.get? k = some v) : (k, v) ∈ s.entries := by
  obtain ⟨e, he, rfl⟩ := Option.map_eq_some_iff.mp h
  have hkey : e.1 = k := by simpa using List.find?_some he
  exact hkey ▸ List.mem_of_find?_eq_some he

theorem get?_of_mem (h : (k, v) ∈ s.entries) : s.get? k = some v := by
  cases hget : s.get? k with
  | none =>
    have hkey : k ∈ s.keys := List.mem_map_of_mem h
    exact absurd hkey (get?_eq_none.mp hget)
  | some v' =>
    have heq := List.inj_on_of_nodup_map s.nodup (mem_of_get? hget) h rfl
    exact congrArg some (Prod.mk.inj heq).2

/-! ## Creation -/

theorem init_eq_some (h : s.init k v = some s') :
    k ∉ s.keys ∧ s'.entries = s.entries ++ [(k, v)] := by
  unfold init at h
  split_ifs at h with hk
  obtain rfl := Option.some.inj h
  exact ⟨hk, rfl⟩

theorem keys_init (h : s.init k v = some s') : s'.keys = s.keys ++ [k] := by
  simp [keys, (init_eq_some h).2]

/-- Creation adds its record and leaves the others alone. -/
theorem get?_init (h : s.init k v = some s') :
    s'.get? k' = if k' = k then some v else s.get? k' := by
  obtain ⟨hfresh, hentries⟩ := init_eq_some h
  by_cases hk : k' = k
  · subst hk
    rw [if_pos rfl]
    exact get?_of_mem (by rw [hentries]; simp)
  · rw [if_neg hk, get?, get?, hentries]
    simp [List.find?_append, Ne.symm hk]

/-- What holds of every record holds after a creation, if it holds of the new
record. -/
theorem forall_init {P : κ → ν → Prop} (h : s.init k v = some s') (hv : P k v)
    (hall : ∀ k v, s.get? k = some v → P k v) : ∀ k v, s'.get? k = some v → P k v := by
  intro k' v' hget
  rw [get?_init h] at hget
  split_ifs at hget with hk
  · obtain rfl := Option.some.inj hget
    exact hk ▸ hv
  · exact hall k' v' hget

theorem total_init (h : s.init k v = some s') (amount : ν → ℕ) :
    s'.total amount = s.total amount + amount v := by
  simp [total, (init_eq_some h).2]

/-! ## Update in place -/

@[simp] theorem keys_modify (f : ν → ν) : (s.modify k f).keys = s.keys := by
  rw [keys, keys, modify, List.map_map]
  refine List.map_congr_left fun e _ => ?_
  by_cases he : e.1 = k <;> simp [he]

theorem get?_modify (f : ν → ν) :
    (s.modify k f).get? k' = if k' = k then (s.get? k').map f else s.get? k' := by
  cases hget : s.get? k' with
  | none =>
    have hkey : (s.modify k f).get? k' = none := by
      rw [get?_eq_none, keys_modify]
      exact get?_eq_none.mp hget
    rw [hkey]
    split_ifs <;> rfl
  | some v =>
    -- the image of the entry is an entry under the same key, and keys are distinct
    have hmem := List.mem_map_of_mem (f := fun e => if e.1 = k then (e.1, f e.2) else e)
      (mem_of_get? hget)
    by_cases hk : k' = k
    · rw [if_pos hk]
      exact get?_of_mem (by simpa [modify, hk] using hmem)
    · rw [if_neg hk]
      exact get?_of_mem (by simpa [modify, hk] using hmem)

/-- Replace every record by its image. -/
def mapValues (s : Store κ ν) (f : κ → ν → ν) : Store κ ν :=
  ⟨s.entries.map fun e => (e.1, f e.1 e.2), by
    rw [List.map_map]
    exact s.nodup⟩

theorem get?_mapValues (f : κ → ν → ν) : (s.mapValues f).get? k = (s.get? k).map (f k) := by
  cases hget : s.get? k with
  | none =>
    have hkeys : (s.mapValues f).keys = s.keys := by
      rw [keys, keys, mapValues, List.map_map]
      rfl
    rw [Option.map_none, get?_eq_none, hkeys]
    exact get?_eq_none.mp hget
  | some v => exact get?_of_mem (List.mem_map_of_mem (mem_of_get? hget))

/-- Drop the records under the keys that fail `p`. -/
def retain (s : Store κ ν) (p : κ → Bool) : Store κ ν :=
  ⟨s.entries.filter fun e => p e.1, s.nodup.sublist (List.filter_sublist.map _)⟩

theorem get?_retain (p : κ → Bool) : (s.retain p).get? k = if p k then s.get? k else none := by
  by_cases hp : p k = true
  · rw [if_pos hp]
    cases hget : s.get? k with
    | none =>
      rw [get?_eq_none] at hget ⊢
      exact fun hmem => hget ((List.filter_sublist.map _).subset hmem)
    | some v => exact get?_of_mem (List.mem_filter.mpr ⟨mem_of_get? hget, hp⟩)
  · rw [if_neg hp, get?_eq_none]
    intro hmem
    obtain ⟨e, he, rfl⟩ := List.mem_map.mp hmem
    exact hp (List.mem_filter.mp he).2

/-- Update the record under `k`, or create `v` there. -/
def upsert (s : Store κ ν) (k : κ) (v : ν) (f : ν → ν) : Store κ ν :=
  (s.init k v).getD (s.modify k f)

theorem get?_upsert (f : ν → ν) :
    (s.upsert k v f).get? k' = if k' = k then some ((s.get? k).elim v f) else s.get? k' := by
  unfold upsert
  cases hinit : s.init k v with
  | none =>
    have hkey : k ∈ s.keys := by
      by_contra hfresh
      rw [init, dif_neg hfresh] at hinit
      cases hinit
    obtain ⟨u, hu⟩ := Option.isSome_iff_exists.mp (get?_isSome.mpr hkey)
    rw [Option.getD_none, get?_modify]
    by_cases hk : k' = k <;> simp [hk, hu]
  | some s' =>
    rw [Option.getD_some, get?_init hinit, get?_eq_none.mpr (init_eq_some hinit).1]
    rfl

/-- What holds of every record holds after an update that keeps it. -/
theorem forall_modify {P : κ → ν → Prop} {f : ν → ν} (hf : ∀ k v, P k v → P k (f v))
    (hall : ∀ k v, s.get? k = some v → P k v) :
    ∀ k' v, (s.modify k f).get? k' = some v → P k' v := by
  intro k' v' hget
  rw [get?_modify] at hget
  split_ifs at hget
  · obtain ⟨v, hv, rfl⟩ := Option.map_eq_some_iff.mp hget
    exact hf k' v (hall k' v hv)
  · exact hall k' v' hget

/-- An update that keeps the amounts keeps their sum. -/
theorem total_modify {f : ν → ν} {amount : ν → ℕ} (h : ∀ v, amount (f v) = amount v) :
    (s.modify k f).total amount = s.total amount := by
  rw [total, total, modify, List.map_map]
  congr 1
  refine List.map_congr_left fun e _ => ?_
  by_cases he : e.1 = k <;> simp [he, h]

/-! ## Sums in a group -/

section Sums

variable {M : Type} [AddCommGroup M]

/-- The sum of an amount over all records. -/
def sum (s : Store κ ν) (amount : ν → M) : M := (s.entries.map fun e => amount e.2).sum

/-- An update moves the sum by the change of its own record's amount. -/
theorem sum_modify (h : s.get? k = some v) (f : ν → ν) (amount : ν → M) :
    (s.modify k f).sum amount = s.sum amount + (amount (f v) - amount v) := by
  have hmem := mem_of_get? h
  have hnodup := s.nodup
  simp only [sum, modify, List.map_map]
  generalize s.entries = es at hmem hnodup
  induction es with
  | nil => simp at hmem
  | cons e es ih =>
    rw [List.map_cons, List.nodup_cons] at hnodup
    simp only [List.map_cons, List.sum_cons, Function.comp_apply]
    rcases List.mem_cons.mp hmem with rfl | hmem
    · -- the key does not occur in the rest
      have hrest : es.map ((fun e => amount e.2) ∘ fun e => if e.1 = k then (e.1, f e.2) else e) =
          es.map fun e => amount e.2 := by
        refine List.map_congr_left fun e he => ?_
        have hne : e.1 ≠ k := fun heq => hnodup.1 (List.mem_map.mpr ⟨e, he, heq⟩)
        simp [hne]
      rw [hrest, if_pos rfl]
      abel
    · have hne : e.1 ≠ k := fun heq => hnodup.1 (List.mem_map.mpr ⟨(k, v), hmem, heq.symm⟩)
      rw [ih hmem hnodup.2, if_neg hne]
      abel

/-- An update that keeps its record's amount keeps the sum. -/
theorem sum_modify_of_eq (h : s.get? k = some v) {f : ν → ν} {amount : ν → M}
    (hamount : amount (f v) = amount v) : (s.modify k f).sum amount = s.sum amount := by
  rw [sum_modify h, hamount, sub_self, add_zero]

theorem sum_eq_zero {amount : ν → M} (h : ∀ k v, s.get? k = some v → amount v = 0) :
    s.sum amount = 0 := by
  refine List.sum_eq_zero fun n hn => ?_
  obtain ⟨⟨k, v⟩, he, rfl⟩ := List.mem_map.mp hn
  exact h k v (get?_of_mem he)

omit [DecidableEq κ] in
/-- A homomorphism passes under the sum. -/
theorem map_sum {N : Type} [AddCommGroup N] (g : M →+ N) (amount : ν → M) :
    g (s.sum amount) = s.sum fun v => g (amount v) := by
  rw [sum, sum, map_list_sum, List.map_map]
  rfl

end Sums

/-! ## Numbered records -/

section Numbered

variable {s : Store ℕ ν} {k : ℕ} {v : ν}

/-- One above every number in use. -/
def nextKey (s : Store ℕ ν) : ℕ := s.keys.foldr max 0 + 1

theorem lt_nextKey (h : k ∈ s.keys) : k < s.nextKey := by
  unfold nextKey
  generalize s.keys = ks at h
  induction ks with
  | nil => simp at h
  | cons a as ih =>
    rw [List.foldr_cons]
    rcases List.mem_cons.mp h with rfl | h
    · omega
    · have hlt := ih h
      omega

theorem nextKey_fresh : s.nextKey ∉ s.keys := fun h => absurd (lt_nextKey h) (by omega)

theorem get?_nextKey : s.get? s.nextKey = none := get?_eq_none.mpr nextKey_fresh

/-- Append a record under the next number. -/
def push (s : Store ℕ ν) (v : ν) : Store ℕ ν :=
  ⟨s.entries ++ [(s.nextKey, v)], by
    rw [List.map_append, List.nodup_append]
    refine ⟨s.nodup, by simp, ?_⟩
    rintro a ha b hb rfl
    simp only [List.map_cons, List.map_nil, List.mem_singleton] at hb
    exact nextKey_fresh (hb ▸ ha)⟩

theorem push_eq_init : s.init s.nextKey v = some (s.push v) := by
  rw [init, dif_neg nextKey_fresh]
  rfl

theorem get?_push : (s.push v).get? k = if k = s.nextKey then some v else s.get? k :=
  get?_init push_eq_init

/-- Appending changes no record that is there. -/
theorem get?_push_of_some {v' : ν} (h : s.get? k = some v') : (s.push v).get? k = some v' := by
  rw [get?_push, if_neg, h]
  rintro rfl
  rw [get?_nextKey] at h
  cases h

theorem sum_push {M : Type} [AddCommGroup M] (amount : ν → M) : (s.push v).sum amount = s.sum amount + amount v := by
  simp [sum, push]

end Numbered

end Store
