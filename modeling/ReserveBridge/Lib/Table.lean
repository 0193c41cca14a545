-- SUMMARY: Tables of numbered rows with a check on every row and unique index entries, where an insertion or an update that would break either is refused.
import ReserveBridge.Lib.Store

/-!
# Tables with constraints

A database refuses to write a row that fails a check of the schema, or that
has an index entry of another row. So the rows of a table satisfy the checks
and own their index entries, whatever the program writes.
-/

/-- Numbered rows that satisfy `check`, no two of which share an entry of
`index`. -/
structure Table {ν κ : Type} (check : ν → Prop) (index : ν → List κ) where
  rows : Store ℕ ν
  checked : ∀ k v, rows.get? k = some v → check v
  unique : ∀ k₁ k₂ v₁ v₂ x, rows.get? k₁ = some v₁ → rows.get? k₂ = some v₂ →
    x ∈ index v₁ → x ∈ index v₂ → k₁ = k₂

namespace Table

variable {ν κ : Type} {check : ν → Prop} {index : ν → List κ}

def empty : Table check index where
  rows := .empty
  checked k v h := by cases h
  unique k₁ k₂ v₁ v₂ x h := by cases h

def get? (T : Table check index) (k : ℕ) : Option ν := T.rows.get? k

/-- The row `v` can be written under `k`: it satisfies the check, and no other
row has an index entry of it. -/
def Admits (T : Table check index) (k : ℕ) (v : ν) : Prop :=
  check v ∧ ∀ e ∈ T.rows.entries, e.1 ≠ k → ∀ x ∈ index v, ∀ y ∈ index e.2, x ≠ y

instance [DecidablePred check] [DecidableEq κ] (T : Table check index) (k : ℕ) (v : ν) :
    Decidable (T.Admits k v) := inferInstanceAs (Decidable (_ ∧ _))

variable {T T' : Table check index} {k k' : ℕ} {v v' : ν}

theorem Admits.not_shared (h : T.Admits k v) (hget : T.get? k' = some v') (hne : k' ≠ k) {x : κ}
    (hx : x ∈ index v) : x ∉ index v' :=
  fun hx' => h.2 _ (Store.mem_of_get? hget) hne x hx x hx' rfl

theorem admits_of (hcheck : check v)
    (hfree : ∀ k' v', T.get? k' = some v' → k' ≠ k → ∀ x ∈ index v, x ∉ index v') :
    T.Admits k v := by
  refine ⟨hcheck, ?_⟩
  rintro ⟨k', v'⟩ hmem hne x hx y hy rfl
  exact hfree k' v' (Store.get?_of_mem hmem) hne x hx hy

/-- A row may be changed to one with the same entries. -/
theorem admits_of_index_eq (hcheck : check v) (hget : T.get? k = some v')
    (hindex : index v = index v') : T.Admits k v := by
  refine admits_of hcheck fun k' v₁ hget₁ hne x hx hx₁ => ?_
  rw [hindex] at hx
  exact hne (T.unique k' k v₁ v' x hget₁ hget hx₁ hx)

/-- Writing an admitted row keeps the constraints, when every other row stays. -/
theorem Admits.constrain (h : T.Admits k v) (rows : Store ℕ ν)
    (hrows : ∀ k', rows.get? k' = if k' = k then some v else T.get? k') :
    (∀ k v, rows.get? k = some v → check v) ∧
      ∀ k₁ k₂ v₁ v₂ x, rows.get? k₁ = some v₁ → rows.get? k₂ = some v₂ →
        x ∈ index v₁ → x ∈ index v₂ → k₁ = k₂ := by
  constructor
  · intro k' v' hget
    rw [hrows] at hget
    split_ifs at hget
    · exact Option.some.inj hget ▸ h.1
    · exact T.checked k' v' hget
  · intro k₁ k₂ v₁ v₂ x hget₁ hget₂ hx₁ hx₂
    rw [hrows] at hget₁ hget₂
    split_ifs at hget₁ hget₂ with h₁ h₂ h₂
    · rw [h₁, h₂]
    · exact absurd hx₂ (h.not_shared hget₂ h₂ (Option.some.inj hget₁ ▸ hx₁))
    · exact absurd hx₁ (h.not_shared hget₁ h₁ (Option.some.inj hget₂ ▸ hx₂))
    · exact T.unique k₁ k₂ v₁ v₂ x hget₁ hget₂ hx₁ hx₂

section Writes

variable [DecidablePred check] [DecidableEq κ]

/-- Append a row under the next number. -/
def insert (T : Table check index) (v : ν) : Option (Table check index) :=
  if h : T.Admits T.rows.nextKey v then
    have hkept := h.constrain (T.rows.push v) fun _ => Store.get?_push
    some ⟨T.rows.push v, hkept.1, hkept.2⟩
  else none

/-- Replace the row under `k`. A number without a row is left alone. -/
def update (T : Table check index) (k : ℕ) (v : ν) : Option (Table check index) :=
  if hget : (T.get? k).isSome then
    if h : T.Admits k v then
      have hkept := h.constrain (T.rows.modify k fun _ => v) fun k' => by
        rw [Store.get?_modify]
        split_ifs with hk
        · obtain ⟨u, hu⟩ := Option.isSome_iff_exists.mp (hk ▸ hget)
          rw [get?] at hu
          rw [hu, Option.map_some]
        · rfl
      some ⟨T.rows.modify k fun _ => v, hkept.1, hkept.2⟩
    else none
  else some T

theorem insert_eq_some (h : T.insert v = some T') :
    T.Admits T.rows.nextKey v ∧
      ∀ k, T'.get? k = if k = T.rows.nextKey then some v else T.get? k := by
  unfold insert at h
  split_ifs at h with hadmits
  obtain rfl := Option.some.inj h
  exact ⟨hadmits, fun _ => Store.get?_push⟩

theorem update_eq_some (h : T.update k v = some T') (hget : T.get? k = some v') :
    T.Admits k v ∧ ∀ k', T'.get? k' = if k' = k then some v else T.get? k' := by
  unfold update at h
  rw [dif_pos (by rw [hget]; rfl)] at h
  split_ifs at h with hadmits
  obtain rfl := Option.some.inj h
  refine ⟨hadmits, fun k' => ?_⟩
  rw [get?] at hget
  rw [get?, Store.get?_modify]
  split_ifs with hk
  · rw [hk, hget, Option.map_some]
  · rfl

/-- What is admitted is written. -/
theorem exists_update (hget : T.get? k = some v') (h : T.Admits k v) :
    ∃ T', T.update k v = some T' := by
  rw [update, dif_pos (by rw [hget]; rfl), dif_pos h]
  exact ⟨_, rfl⟩

end Writes

theorem get?_nextKey : T.get? T.rows.nextKey = none := Store.get?_nextKey

/-- Replace every row by its image, which passes the check and has no entry
that the row did not have. -/
def mapValues (T : Table check index) (f : ν → ν) (hcheck : ∀ v, check v → check (f v))
    (hindex : ∀ v, index (f v) ⊆ index v) : Table check index where
  rows := T.rows.mapValues fun _ => f
  checked k v h := by
    rw [Store.get?_mapValues, Option.map_eq_some_iff] at h
    obtain ⟨u, hu, rfl⟩ := h
    exact hcheck u (T.checked k u hu)
  unique k₁ k₂ v₁ v₂ x h₁ h₂ hx₁ hx₂ := by
    rw [Store.get?_mapValues, Option.map_eq_some_iff] at h₁ h₂
    obtain ⟨u₁, hu₁, rfl⟩ := h₁
    obtain ⟨u₂, hu₂, rfl⟩ := h₂
    exact T.unique k₁ k₂ u₁ u₂ x hu₁ hu₂ (hindex u₁ hx₁) (hindex u₂ hx₂)

theorem get?_mapValues {f : ν → ν} {hcheck : ∀ v, check v → check (f v)}
    {hindex : ∀ v, index (f v) ⊆ index v} :
    (T.mapValues f hcheck hindex).get? k = (T.get? k).map f :=
  Store.get?_mapValues _

end Table
