-- SUMMARY: Coin selection is sound and complete and leaves no more change than the best single output, and the change is fanned out without loss.
import ReserveBridge.Goldcoin.Coin

/-!
# What coin selection selects

A selection is found whenever there is one. The strategies take single outputs
or the first elements of a sorted list, and in a list in descending order these
have the largest sums of their number.
-/

namespace Goldcoin
open Descending

/-! ## Prefixes -/

/-- A result that takes outputs with change: their sum, and a fee for two
outputs. -/
structure SelectionResult.Covers (r : SelectionResult)
    (amount feeRatePerKb inputBytes maxInputs : ℕ) : Prop where
  pos : 1 ≤ r.selected.length
  max : r.selected.length ≤ maxInputs
  sum : r.totalSelected = total r.selected
  fee : r.fee = feeFor r.selected.length 2 feeRatePerKb inputBytes
  covers : amount + r.fee ≤ r.totalSelected

section Prefixes

theorem SelectionResult.Covers.mono {r : SelectionResult}
    {amount feeRatePerKb inputBytes maxInputs maxInputs' : ℕ} (hle : maxInputs ≤ maxInputs')
    (h : r.Covers amount feeRatePerKb inputBytes maxInputs) :
    r.Covers amount feeRatePerKb inputBytes maxInputs' :=
  ⟨h.pos, h.max.trans hle, h.sum, h.fee, h.covers⟩

variable {amount feeRatePerKb inputBytes maxInputs : ℕ} {selected rest : List VaultUtxo}
  {r : SelectionResult}

/-- The combination takes a prefix of what it is given. -/
theorem combine_eq_some (h : combine amount feeRatePerKb inputBytes maxInputs selected
      (total selected) rest = some r) :
    r.Covers amount feeRatePerKb inputBytes maxInputs ∧ ∃ k, r.selected = selected ++ rest.take k := by
  induction rest generalizing selected with
  | nil => cases h
  | cons u rest ih =>
    simp only [combine] at h
    split_ifs at h with hmax hcovers
    · obtain rfl := Option.some.inj h
      refine ⟨⟨by simp, ?_, by simp [total], rfl, hcovers⟩, 1, by simp⟩
      rw [List.length_append, List.length_singleton]
      omega
    · have hsum : total selected + u.amount = total (selected ++ [u]) := by simp [total]
      rw [hsum] at h
      obtain ⟨hr, k, hk⟩ := ih h
      exact ⟨hr, k + 1, by rw [hk]; simp⟩

/-- So does the third strategy. -/
theorem accumulate_eq_ok (h : accumulate amount feeRatePerKb inputBytes maxInputs selected
      (total selected) rest = some (.ok r)) :
    r.Covers amount feeRatePerKb inputBytes maxInputs ∧ ∃ k, r.selected = selected ++ rest.take k := by
  induction rest generalizing selected with
  | nil => cases h
  | cons u rest ih =>
    simp only [accumulate] at h
    split_ifs at h with hmax hcovers
    · cases h
    · obtain rfl := Except.ok.inj (Option.some.inj h)
      exact ⟨⟨by simp, by simpa using hmax, by simp [total], rfl, hcovers⟩, 1, by simp⟩
    · have hsum : total selected + u.amount = total (selected ++ [u]) := by simp [total]
      rw [hsum] at h
      obtain ⟨hr, k, hk⟩ := ih h
      exact ⟨hr, k + 1, by rw [hk]; simp⟩

/-- Where the third strategy fails, no prefix within the limit covers the
amount. -/
theorem lt_of_accumulate_ne_ok (h : ∀ r, accumulate amount feeRatePerKb inputBytes maxInputs selected
      (total selected) rest ≠ some (.ok r)) {k : ℕ} (hpos : 1 ≤ k) (hk : k ≤ rest.length)
    (hmax : selected.length + k ≤ maxInputs) :
    total (selected ++ rest.take k) <
      amount + feeFor (selected.length + k) 2 feeRatePerKb inputBytes := by
  induction rest generalizing selected k with
  | nil =>
    rw [List.length_nil] at hk
    omega
  | cons u rest ih =>
    have hsum : total selected + u.amount = total (selected ++ [u]) := by simp [total]
    have hlen : (selected ++ [u]).length = selected.length + 1 := by simp
    simp only [accumulate, hsum, hlen] at h
    rw [if_neg (by omega)] at h
    split_ifs at h with hcovers
    · exact absurd rfl (h _)
    · cases k with
      | zero => omega
      | succ k =>
        rw [List.length_cons] at hk
        by_cases hzero : k = 0
        · subst hzero
          simpa using Nat.lt_of_not_le hcovers
        · have hrest := ih h (k := k) (by omega) (by omega) (by rw [hlen]; omega)
          rw [hlen, List.append_assoc, List.singleton_append] at hrest
          rwa [List.take_succ_cons, Nat.add_comm k 1, ← Nat.add_assoc]

/-- The errors of the third strategy: the limit is exceeded when there are more
outputs than the limit. -/
theorem accumulate_eq_error {e : CoinSelectionError} (h : accumulate amount feeRatePerKb inputBytes
      maxInputs selected (total selected) rest = some (.error e)) :
    e = .tooManyInputs maxInputs ∧ maxInputs < selected.length + rest.length := by
  induction rest generalizing selected with
  | nil => cases h
  | cons u rest ih =>
    simp only [accumulate] at h
    split_ifs at h with hmax hcovers
    · obtain rfl := Except.error.inj (Option.some.inj h)
      rw [List.length_append, List.length_singleton] at hmax
      rw [List.length_cons]
      exact ⟨rfl, by omega⟩
    · cases h
    · have hsum : total selected + u.amount = total (selected ++ [u]) := by simp [total]
      rw [hsum] at h
      obtain ⟨he, hlt⟩ := ih h
      rw [List.length_append, List.length_singleton] at hlt
      rw [List.length_cons]
      exact ⟨he, by omega⟩

/-- The third strategy does not run out of outputs beyond the limit. -/
theorem length_le_of_accumulate_eq_none (h : accumulate amount feeRatePerKb inputBytes maxInputs
      selected (total selected) rest = none) (hmax : selected.length ≤ maxInputs) :
    selected.length + rest.length ≤ maxInputs := by
  induction rest generalizing selected with
  | nil => simpa using hmax
  | cons u rest ih =>
    simp only [accumulate] at h
    split_ifs at h with hmax' hcovers
    have hsum : total selected + u.amount = total (selected ++ [u]) := by simp [total]
    rw [hsum] at h
    have hlen := ih h (Nat.le_of_not_lt hmax')
    rw [List.length_append, List.length_singleton] at hlen
    rw [List.length_cons]
    omega

end Prefixes

/-! ## The strategies -/

section Strategies

variable {candidates : List VaultUtxo} {amount feeRatePerKb inputBytes maxInputs : ℕ}
  {u single : VaultUtxo} {r : SelectionResult}

theorem exactMatch_eq_some (h : exactMatch amount feeRatePerKb inputBytes candidates = some u) :
    u ∈ candidates ∧ u.amount = amount + feeFor 1 1 feeRatePerKb inputBytes :=
  ⟨List.mem_of_find?_eq_some h, by simpa using List.find?_some h⟩

theorem exactMatch_eq_none : exactMatch amount feeRatePerKb inputBytes candidates = none ↔
    ∀ u ∈ candidates, u.amount ≠ amount + feeFor 1 1 feeRatePerKb inputBytes := by
  simp [exactMatch, List.find?_eq_none]

theorem amount_le_of_key_le {u v : VaultUtxo} (h : u.key ≤ v.key) : u.amount ≤ v.amount := by
  obtain hlt | ⟨heq, -⟩ := Prod.Lex.le_iff.mp h
  · exact hlt.le
  · exact heq.le

/-- The smallest of the outputs that cover the amount. -/
theorem smallestSingle_eq_some
    (h : smallestSingle amount feeRatePerKb inputBytes candidates = some single) :
    single ∈ candidates ∧ amount + feeFor 1 2 feeRatePerKb inputBytes ≤ single.amount ∧
      ∀ v ∈ candidates, amount + feeFor 1 2 feeRatePerKb inputBytes ≤ v.amount →
        single.amount ≤ v.amount := by
  have hmem := List.mem_filter.mp (List.argmin_mem h)
  refine ⟨hmem.1, of_decide_eq_true hmem.2, fun v hv hcovers => ?_⟩
  have hfilter : v ∈ candidates.filter fun u =>
      amount + feeFor 1 2 feeRatePerKb inputBytes ≤ u.amount :=
    List.mem_filter.mpr ⟨hv, decide_eq_true hcovers⟩
  exact amount_le_of_key_le (List.le_of_mem_argmin hfilter h)

theorem smallestSingle_eq_none : smallestSingle amount feeRatePerKb inputBytes candidates = none ↔
    ∀ u ∈ candidates, ¬ amount + feeFor 1 2 feeRatePerKb inputBytes ≤ u.amount := by
  simp [smallestSingle, List.argmin_eq_none, List.filter_eq_nil_iff]

/-- The combination selects positions of the list. -/
theorem smallestFirstCombination_eq_some {bound : ℕ} (h : smallestFirstCombination amount
      feeRatePerKb inputBytes maxInputs candidates bound = some r) :
    r.Covers amount feeRatePerKb inputBytes maxInputs ∧ r.selected.Subperm candidates := by
  obtain ⟨hr, k, hk⟩ := @combine_eq_some _ _ _ _ [] _ _ h
  refine ⟨hr, ?_⟩
  rw [hk, List.nil_append]
  refine (List.take_sublist k _).subperm.trans ?_
  exact (List.perm_insertionSort _ _).subperm.trans List.filter_sublist.subperm

/-- A single output that covers the amount with change. -/
theorem covers_single (hmax : 1 ≤ maxInputs)
    (h : amount + feeFor 1 2 feeRatePerKb inputBytes ≤ single.amount) :
    SelectionResult.Covers ⟨[single], single.amount, feeFor 1 2 feeRatePerKb inputBytes⟩ amount
      feeRatePerKb inputBytes maxInputs :=
  ⟨le_rfl, hmax, by simp [total], rfl, h⟩

theorem singleton_subperm {α : Type} {l : List α} {a : α} (h : a ∈ l) : [a].Subperm l :=
  (List.singleton_sublist.mpr h).subperm

end Strategies

/-! ## Selection -/

section Select

variable {candidates : List VaultUtxo}
  {amount feeRatePerKb threshold redeemScriptLen maxInputs inputBytes : ℕ} {r : SelectionResult}

/-- What `select` returns: an exact match, or outputs that cover the amount with
change. The change is at most that of a single output. -/
inductive Selected (candidates : List VaultUtxo) (amount feeRatePerKb inputBytes maxInputs : ℕ)
    (r : SelectionResult) : Prop
  | exact (u : VaultUtxo) (mem : u ∈ candidates)
    (amount : u.amount = amount + feeFor 1 1 feeRatePerKb inputBytes)
    (result : r = ⟨[u], u.amount, feeFor 1 1 feeRatePerKb inputBytes⟩)
  | change (covers : r.Covers amount feeRatePerKb inputBytes maxInputs)
    (subperm : r.selected.Subperm candidates)
    (best : ∀ u ∈ candidates, amount + feeFor 1 2 feeRatePerKb inputBytes ≤ u.amount →
      r.changeOf amount ≤ u.amount - amount - feeFor 1 2 feeRatePerKb inputBytes)

/-- A single output is taken even where the limit is 0. -/
theorem select_eq_ok_max
    (h : select candidates amount feeRatePerKb threshold redeemScriptLen maxInputs = .ok r) :
    Selected candidates amount feeRatePerKb (multisigInputBytes threshold redeemScriptLen)
      (max 1 maxInputs) r := by
  have hmax : maxInputs ≤ max 1 maxInputs := le_max_right _ _
  unfold select at h
  generalize multisigInputBytes threshold redeemScriptLen = inputBytes at *
  cases hexact : exactMatch amount feeRatePerKb inputBytes candidates with
  | some u =>
    simp only [hexact] at h
    obtain rfl := Except.ok.inj h
    obtain ⟨hmem, hamount⟩ := exactMatch_eq_some hexact
    exact .exact u hmem hamount rfl
  | none =>
    simp only [hexact] at h
    cases hsingle : smallestSingle amount feeRatePerKb inputBytes candidates with
    | some single =>
      simp only [hsingle] at h
      obtain ⟨hmem, hcovers, hleast⟩ := smallestSingle_eq_some hsingle
      have hbest : ∀ u ∈ candidates, amount + feeFor 1 2 feeRatePerKb inputBytes ≤ u.amount →
          single.amount - amount - feeFor 1 2 feeRatePerKb inputBytes ≤
            u.amount - amount - feeFor 1 2 feeRatePerKb inputBytes := fun u hu hcov =>
        Nat.sub_le_sub_right (Nat.sub_le_sub_right (hleast u hu hcov) _) _
      have hfallback := Selected.change (covers_single (le_max_left 1 maxInputs) hcovers) (singleton_subperm hmem) hbest
      cases hcombo : smallestFirstCombination amount feeRatePerKb inputBytes maxInputs candidates
          single.amount with
      | none =>
        simp only [hcombo] at h
        exact Except.ok.inj h ▸ hfallback
      | some combo =>
        simp only [hcombo] at h
        obtain ⟨hcov, hsub⟩ := smallestFirstCombination_eq_some hcombo
        split_ifs at h with hless
        · obtain rfl := Except.ok.inj h
          exact .change (hcov.mono hmax) hsub fun u hu hu' => hless.le.trans (hbest u hu hu')
        · exact Except.ok.inj h ▸ hfallback
    | none =>
      simp only [hsingle] at h
      have hnone := smallestSingle_eq_none.mp hsingle
      cases hacc : accumulate amount feeRatePerKb inputBytes maxInputs [] 0 candidates with
      | none =>
        simp only [hacc] at h
        cases h
      | some result =>
        simp only [hacc] at h
        subst h
        obtain ⟨hcov, k, hk⟩ := @accumulate_eq_ok _ _ _ _ [] _ _ hacc
        refine .change (hcov.mono hmax) ?_ fun u hu hcovers => absurd hcovers (hnone u hu)
        rw [hk, List.nil_append]
        exact (List.take_sublist k _).subperm

theorem select_eq_ok (hmax : 1 ≤ maxInputs)
    (h : select candidates amount feeRatePerKb threshold redeemScriptLen maxInputs = .ok r) :
    Selected candidates amount feeRatePerKb (multisigInputBytes threshold redeemScriptLen)
      maxInputs r := by
  have hselected := select_eq_ok_max h
  rwa [max_eq_right hmax] at hselected

/-- A failed selection went through all strategies. -/
theorem select_eq_error {e : CoinSelectionError}
    (h : select candidates amount feeRatePerKb threshold redeemScriptLen maxInputs = .error e)
    (hinput : multisigInputBytes threshold redeemScriptLen = inputBytes) :
    (∀ u ∈ candidates, u.amount ≠ amount + feeFor 1 1 feeRatePerKb inputBytes) ∧
      (∀ r, accumulate amount feeRatePerKb inputBytes maxInputs [] 0 candidates ≠ some (.ok r)) ∧
      (accumulate amount feeRatePerKb inputBytes maxInputs [] 0 candidates = some (.error e) ∨
        accumulate amount feeRatePerKb inputBytes maxInputs [] 0 candidates = none ∧
          ∃ required available, e = .insufficient required available) := by
  unfold select at h
  rw [hinput] at h
  cases hexact : exactMatch amount feeRatePerKb inputBytes candidates with
  | some u =>
    simp only [hexact] at h
    cases h
  | none =>
    simp only [hexact] at h
    refine ⟨exactMatch_eq_none.mp hexact, ?_⟩
    cases hsingle : smallestSingle amount feeRatePerKb inputBytes candidates with
    | some single =>
      simp only [hsingle] at h
      split at h
      · split_ifs at h
      · cases h
    | none =>
      simp only [hsingle] at h
      cases hacc : accumulate amount feeRatePerKb inputBytes maxInputs [] 0 candidates with
      | none =>
        simp only [hacc] at h
        obtain rfl := Except.error.inj h
        exact ⟨fun r hr => (by cases hr), .inr ⟨rfl, _, _, rfl⟩⟩
      | some result =>
        simp only [hacc] at h
        subst h
        exact ⟨fun r hr => (by cases hr), .inl rfl⟩

/-- Outputs that can be selected: an exact match, or some within the limit that
cover the amount and a fee for two outputs. -/
def Selectable (candidates : List VaultUtxo) (amount feeRatePerKb inputBytes maxInputs : ℕ) : Prop :=
  (∃ s : List VaultUtxo, s.Subperm candidates ∧ 1 ≤ s.length ∧ s.length ≤ maxInputs ∧
    amount + feeFor s.length 2 feeRatePerKb inputBytes ≤ total s) ∨
  ∃ u ∈ candidates, u.amount = amount + feeFor 1 1 feeRatePerKb inputBytes

theorem Selected.selectable (h : Selected candidates amount feeRatePerKb inputBytes maxInputs r) :
    Selectable candidates amount feeRatePerKb inputBytes maxInputs := by
  cases h with
  | exact u mem amount => exact .inr ⟨u, mem, amount⟩
  | change covers subperm =>
    have hcovers := covers.covers
    rw [covers.fee, covers.sum] at hcovers
    exact .inl ⟨r.selected, subperm, covers.pos, covers.max, hcovers⟩

/-- A selection is found whenever there is one. -/
theorem select_complete (hsorted : Sorted VaultUtxo.amount candidates)
    (h : Selectable candidates amount feeRatePerKb (multisigInputBytes threshold redeemScriptLen)
      maxInputs) :
    ∃ r, select candidates amount feeRatePerKb threshold redeemScriptLen maxInputs = .ok r := by
  cases hselect : select candidates amount feeRatePerKb threshold redeemScriptLen maxInputs with
  | ok r => exact ⟨r, rfl⟩
  | error e =>
    exfalso
    obtain ⟨hexact, hacc, -⟩ := select_eq_error hselect rfl
    obtain ⟨s, hsub, hpos, hmax, hcovers⟩ | ⟨u, hu, hamount⟩ := h
    · -- the first outputs have the largest sum of their number
      have hpre := @lt_of_accumulate_ne_ok _ _ _ _ [] _ hacc _ hpos hsub.length_le
        (by rw [List.length_nil]; omega)
      rw [List.nil_append, List.length_nil, Nat.zero_add] at hpre
      have hlargest := sum_le_sum_take hsorted hsub
      exact absurd (hcovers.trans hlargest) (Nat.not_le_of_lt hpre)
    · exact hexact u hu hamount

/-- The selection fails exactly where nothing can be selected. -/
theorem select_fails_iff (hsorted : Sorted VaultUtxo.amount candidates) (hmax : 1 ≤ maxInputs) :
    (∃ e, select candidates amount feeRatePerKb threshold redeemScriptLen maxInputs = .error e) ↔
      ¬ Selectable candidates amount feeRatePerKb (multisigInputBytes threshold redeemScriptLen)
        maxInputs := by
  constructor
  · rintro ⟨e, he⟩ hselectable
    obtain ⟨r, hr⟩ := select_complete hsorted hselectable
    rw [he] at hr
    cases hr
  · intro hnot
    cases hselect : select candidates amount feeRatePerKb threshold redeemScriptLen maxInputs with
    | ok r => exact absurd (select_eq_ok hmax hselect).selectable hnot
    | error e => exact ⟨e, rfl⟩

end Select

/-- For candidates in descending order: what is selected are distinct positions
of the list within the limit, with their sum and a fee that it covers. The
selection fails exactly where no outputs within the limit cover the amount and
no output matches it, and it leaves no more change than the smallest output that
covers the amount by itself. -/
theorem select_sound_complete (candidates : List VaultUtxo)
    (amount feeRatePerKb threshold redeemScriptLen maxInputs : ℕ)
    (hsorted : Sorted VaultUtxo.amount candidates) (hmax : 1 ≤ maxInputs) :
    let inputBytes := multisigInputBytes threshold redeemScriptLen
    let result := select candidates amount feeRatePerKb threshold redeemScriptLen maxInputs
    (∀ r, result = .ok r → r.selected.Subperm candidates ∧ r.selected.length ≤ maxInputs ∧
      r.totalSelected = total r.selected ∧ amount + r.fee ≤ r.totalSelected ∧
      (r.fee = feeFor r.selected.length 2 feeRatePerKb inputBytes ∨
        r.selected.length = 1 ∧ r.fee = feeFor 1 1 feeRatePerKb inputBytes ∧
          r.totalSelected = amount + r.fee)) ∧
    ((∃ e, result = .error e) ↔
      (∀ s : List VaultUtxo, s.Subperm candidates → 1 ≤ s.length → s.length ≤ maxInputs →
        total s < amount + feeFor s.length 2 feeRatePerKb inputBytes) ∧
      ∀ u ∈ candidates, u.amount ≠ amount + feeFor 1 1 feeRatePerKb inputBytes) ∧
    ∀ u ∈ candidates, amount + feeFor 1 2 feeRatePerKb inputBytes ≤ u.amount →
      (∀ v ∈ candidates, amount + feeFor 1 2 feeRatePerKb inputBytes ≤ v.amount →
        u.amount ≤ v.amount) →
      ∃ r, result = .ok r ∧
        r.changeOf amount ≤ u.amount - amount - feeFor 1 2 feeRatePerKb inputBytes := by
  intro inputBytes result
  refine ⟨fun r hr => ?_, ?_, fun u hu hcovers _ => ?_⟩
  · cases select_eq_ok hmax hr with
    | exact u mem hamount hresult =>
      subst hresult
      exact ⟨singleton_subperm mem, hmax, by simp [total], hamount.ge, .inr ⟨rfl, rfl, hamount⟩⟩
    | change covers subperm =>
      exact ⟨subperm, covers.max, covers.sum, covers.covers, .inl covers.fee⟩
  · refine (select_fails_iff hsorted hmax).trans ?_
    simp only [Selectable, not_or, not_exists, not_and, Nat.not_le]
    exact Iff.rfl
  · obtain ⟨r, hr⟩ := @select_complete _ _ _ _ _ maxInputs hsorted
      (.inl ⟨[u], singleton_subperm hu, le_rfl, hmax, by simpa [total] using hcovers⟩)
    refine ⟨r, hr, ?_⟩
    cases select_eq_ok hmax hr with
    | exact v mem hamount hresult =>
      subst hresult
      simp [SelectionResult.changeOf, hamount]
    | change _ _ best => exact best u hu hcovers

def sampleUtxo (n amount : ℕ) : VaultUtxo := ⟨Vector.replicate 32 0, n, amount, ""⟩

theorem select_sound_complete_sample :
    ∃ r, select [sampleUtxo 0 100, sampleUtxo 1 60] 120 0 2 105 2 = .ok r ∧
      120 + r.fee ≤ r.totalSelected := by
  have h := (select_sound_complete [sampleUtxo 0 100, sampleUtxo 1 60] 120 0 2 105 2
    (by simp [Sorted, sampleUtxo]) (by decide)).1
  have hresult : select [sampleUtxo 0 100, sampleUtxo 1 60] 120 0 2 105 2 =
      .ok ⟨[sampleUtxo 0 100, sampleUtxo 1 60], 160, 0⟩ := by decide +kernel
  exact ⟨_, hresult, (h _ hresult).2.2.2.1⟩

/-! ## Equal parts -/

section Distribute

variable {distributable chunkCount : ℕ}

@[simp] theorem length_distributeEvenly :
    (distributeEvenly distributable chunkCount).length = chunkCount := by
  unfold distributeEvenly
  split_ifs with h
  · exact h.symm
  · simp

theorem sum_range_ite (base remainder n : ℕ) :
    ((List.range n).map fun i => if i < remainder then base + 1 else base).sum =
      n * base + min remainder n := by
  induction n with
  | zero => simp
  | succ n ih =>
    rw [List.range_succ, List.map_append, List.sum_append, ih]
    simp only [List.map_cons, List.map_nil, List.sum_cons, List.sum_nil]
    rw [Nat.succ_mul]
    split_ifs with h
    · omega
    · omega

/-- Nothing is lost, where there is a part at all. -/
theorem sum_distributeEvenly (h : 0 < chunkCount) :
    (distributeEvenly distributable chunkCount).sum = distributable := by
  have hlt := Nat.mod_lt distributable h
  have hdiv := Nat.div_add_mod distributable chunkCount
  rw [distributeEvenly, if_neg h.ne', sum_range_ite]
  omega

theorem mem_distributeEvenly {x : ℕ} (h : x ∈ distributeEvenly distributable chunkCount) :
    x = distributable / chunkCount ∨ x = distributable / chunkCount + 1 := by
  unfold distributeEvenly at h
  split_ifs at h
  · cases h
  · obtain ⟨i, -, rfl⟩ := List.mem_map.mp h
    split_ifs
    · exact .inr rfl
    · exact .inl rfl

/-- The last part is the quotient: there are fewer units left over than parts. -/
theorem div_mem_distributeEvenly (h : 0 < chunkCount) :
    distributable / chunkCount ∈ distributeEvenly distributable chunkCount := by
  have hlt := Nat.mod_lt distributable h
  rw [distributeEvenly, if_neg h.ne']
  refine List.mem_map.mpr ⟨chunkCount - 1, List.mem_range.mpr (by omega), ?_⟩
  rw [if_neg (by omega)]

/-- The smallest part. -/
theorem min?_distributeEvenly (h : 0 < chunkCount) :
    (distributeEvenly distributable chunkCount).min? = some (distributable / chunkCount) := by
  rw [List.min?_eq_some_iff]
  refine ⟨div_mem_distributeEvenly h, fun x hx => ?_⟩
  obtain rfl | rfl := mem_distributeEvenly hx
  · exact le_rfl
  · exact Nat.le_succ _

end Distribute

/-! ## Fan-out -/

section Fanout

variable {leftover numInputs inputBytes feeRatePerKb dustThreshold : ℕ}

/-- A number of change outputs whose fee is covered and that all clear dust. -/
def Clears (leftover numInputs inputBytes feeRatePerKb dustThreshold n : ℕ) : Prop :=
  n = 0 ∨ feeFor numInputs (1 + n) feeRatePerKb inputBytes ≤ leftover ∧
    ∀ x ∈ distributeEvenly (leftover - feeFor numInputs (1 + n) feeRatePerKb inputBytes) n,
      dustThreshold ≤ x

/-- All parts clear dust when the smallest does. -/
theorem clears_succ {n : ℕ} :
    Clears leftover numInputs inputBytes feeRatePerKb dustThreshold (n + 1) ↔
      feeFor numInputs (1 + (n + 1)) feeRatePerKb inputBytes ≤ leftover ∧
        dustThreshold ≤
          (leftover - feeFor numInputs (1 + (n + 1)) feeRatePerKb inputBytes) / (n + 1) := by
  have hzero : n + 1 ≠ 0 := Nat.succ_ne_zero n
  simp only [Clears, hzero, false_or]
  refine and_congr_right fun _ => ⟨fun h => h _ (div_mem_distributeEvenly (Nat.succ_pos n)),
    fun h x hx => ?_⟩
  obtain rfl | rfl := mem_distributeEvenly hx
  · exact h
  · exact h.trans (Nat.le_succ _)

/-- The change for a number of outputs. -/
def fanout (leftover numInputs inputBytes feeRatePerKb n : ℕ) : List ℕ × ℕ :=
  if n = 0 then ([], leftover)
  else
    let fee := feeFor numInputs (1 + n) feeRatePerKb inputBytes
    (distributeEvenly (leftover - fee) n, fee)

/-- The search stops at the largest number of outputs that clear dust. -/
theorem fanoutFrom_eq (n : ℕ) : ∃ m ≤ n,
    fanoutFrom leftover numInputs inputBytes feeRatePerKb dustThreshold n =
      fanout leftover numInputs inputBytes feeRatePerKb m ∧
    Clears leftover numInputs inputBytes feeRatePerKb dustThreshold m ∧
    ∀ j, m < j → j ≤ n → ¬ Clears leftover numInputs inputBytes feeRatePerKb dustThreshold j := by
  induction n with
  | zero => exact ⟨0, le_rfl, rfl, .inl rfl, fun j hj hle => absurd hle (Nat.not_le_of_lt hj)⟩
  | succ n ih =>
    have hmin (d : ℕ) : (distributeEvenly d (n + 1)).min? = some (d / (n + 1)) :=
      min?_distributeEvenly (Nat.succ_pos n)
    have hstep : ¬ Clears leftover numInputs inputBytes feeRatePerKb dustThreshold (n + 1) →
        fanoutFrom leftover numInputs inputBytes feeRatePerKb dustThreshold (n + 1) =
          fanoutFrom leftover numInputs inputBytes feeRatePerKb dustThreshold n := by
      intro hnot
      simp only [fanoutFrom, hmin, Option.getD_some]
      rw [clears_succ, not_and_or] at hnot
      split_ifs with hfee hdust
      · rfl
      · rfl
      · omega
    by_cases hclears : Clears leftover numInputs inputBytes feeRatePerKb dustThreshold (n + 1)
    · refine ⟨n + 1, le_rfl, ?_, hclears, fun j hj hle => absurd hle (Nat.not_le_of_lt hj)⟩
      obtain ⟨hfee, hdust⟩ := clears_succ.mp hclears
      simp only [fanoutFrom, hmin, Option.getD_some]
      rw [if_neg (by omega), if_neg (by omega), fanout, if_neg (Nat.succ_ne_zero n)]
    · obtain ⟨m, hm, heq, hm', hmax⟩ := ih
      refine ⟨m, by omega, (hstep hclears).trans heq, hm', fun j hj hle => ?_⟩
      obtain hle | rfl := Nat.le_succ_iff.mp hle
      · exact hmax j hj hle
      · exact hclears

end Fanout

theorem feeFor_mono {numInputs numOutputs numOutputs' feeRatePerKb inputBytes : ℕ}
    (h : numOutputs ≤ numOutputs')
    (hfee : sizeFor numInputs numOutputs' inputBytes * feeRatePerKb < 2 ^ 64) :
    feeFor numInputs numOutputs feeRatePerKb inputBytes ≤
      feeFor numInputs numOutputs' feeRatePerKb inputBytes := by
  have hsize : sizeFor numInputs numOutputs inputBytes ≤ sizeFor numInputs numOutputs' inputBytes :=
    Nat.add_le_add_left (Nat.mul_le_mul_right _ h) _
  have hproduct := Nat.mul_le_mul_right feeRatePerKb hsize
  rw [feeFor, feeFor, Nat.mod_eq_of_lt (lt_of_le_of_lt hproduct hfee), Nat.mod_eq_of_lt hfee]
  exact Nat.div_le_div_right (by omega)

/-- What `select` returns covers the amount, whatever the fee has become. -/
theorem Selected.amount_le {candidates : List VaultUtxo}
    {amount feeRatePerKb inputBytes maxInputs : ℕ} {r : SelectionResult}
    (h : Selected candidates amount feeRatePerKb inputBytes maxInputs r) :
    amount ≤ r.totalSelected := by
  cases h with
  | exact u mem hamount result =>
    subst result
    exact (Nat.le_add_right _ _).trans hamount.ge
  | change covers => exact (Nat.le_add_right _ _).trans covers.covers

/-- It covers the fee for one output, where the fee for two does not wrap. -/
theorem Selected.covers_one {candidates : List VaultUtxo}
    {amount feeRatePerKb inputBytes maxInputs : ℕ} {r : SelectionResult}
    (h : Selected candidates amount feeRatePerKb inputBytes maxInputs r)
    (hfee : sizeFor r.selected.length 2 inputBytes * feeRatePerKb < 2 ^ 64) :
    amount + feeFor r.selected.length 1 feeRatePerKb inputBytes ≤ r.totalSelected := by
  cases h with
  | exact u mem hamount result =>
    subst result
    exact hamount.ge
  | change covers =>
    have hmono : feeFor r.selected.length 1 feeRatePerKb inputBytes ≤
        feeFor r.selected.length 2 feeRatePerKb inputBytes := feeFor_mono (by omega) hfee
    have hcovers := covers.covers
    rw [covers.fee] at hcovers
    omega

theorem finalizeFanout_cap {leftover target maxOutputs : ℕ} :
    (if leftover = 0 then 0 else min (max (divCeil leftover (max target 1)) 1) (max maxOutputs 1)) =
      min (max 1 maxOutputs) (divCeil leftover (max 1 target)) := by
  have hpos : 0 < max target 1 := lt_of_lt_of_le Nat.one_pos (le_max_right _ _)
  rw [max_comm 1 maxOutputs, max_comm 1 target]
  split_ifs with h
  · subst h
    have hzero : divCeil 0 (max target 1) = 0 := by
      rw [divCeil, Nat.div_eq_zero_iff]
      omega
    rw [hzero, Nat.min_zero]
  · have hone : 1 ≤ divCeil leftover (max target 1) := by
      rw [divCeil, Nat.one_le_div_iff hpos]
      omega
    rw [max_eq_left hone, min_comm]

/-- The change and the fee of a payout add up to what is left over. There are at
most `max 1 maxOutputs` outputs, all of them clear dust, no two differ by more
than one, and their number is the largest that clears dust. The fee is that of
the outputs when there is change. Without change it is all that is left over. -/
structure FannedOut (amount totalSelected inputs inputBytes feeRatePerKb dustThreshold target
    maxOutputs : ℕ) (change : List ℕ) (fee : ℕ) : Prop where
  conserved : amount + change.sum + fee = totalSelected
  count : change.length ≤ max 1 maxOutputs
  dust : ∀ x ∈ change, dustThreshold ≤ x
  even : ∀ x ∈ change, ∀ y ∈ change, x ≤ y + 1
  fee_le : feeFor inputs (1 + change.length) feeRatePerKb inputBytes ≤ fee
  fee_eq : change ≠ [] → fee = feeFor inputs (1 + change.length) feeRatePerKb inputBytes
  largest : IsGreatest
    {n | n ≤ min (max 1 maxOutputs) (divCeil (totalSelected - amount) (max 1 target)) ∧
      Clears (totalSelected - amount) inputs inputBytes feeRatePerKb dustThreshold n} change.length
  remainder : change = [] → totalSelected = amount ∨
    fee < feeFor inputs 2 feeRatePerKb inputBytes + dustThreshold

section Finalize

variable {r : SelectionResult}
  {amount inputs inputBytes feeRatePerKb dustThreshold target maxOutputs : ℕ}

/-- The fan-out is that of the largest number of outputs that clear dust. -/
theorem finalizeFanout_eq : ∃ m,
    finalizeFanout r amount inputs inputBytes feeRatePerKb dustThreshold target maxOutputs =
      fanout (r.totalSelected - amount) inputs inputBytes feeRatePerKb m ∧
    IsGreatest {n | n ≤ min (max 1 maxOutputs)
        (divCeil (r.totalSelected - amount) (max 1 target)) ∧
      Clears (r.totalSelected - amount) inputs inputBytes feeRatePerKb dustThreshold n} m := by
  rw [finalizeFanout, finalizeFanout_cap]
  obtain ⟨m, hm, heq, hclears, hgreatest⟩ := @fanoutFrom_eq (r.totalSelected - amount) inputs
    inputBytes feeRatePerKb dustThreshold
    (min (max 1 maxOutputs) (divCeil (r.totalSelected - amount) (max 1 target)))
  refine ⟨m, heq, ⟨hm, hclears⟩, fun j ⟨hj, hj'⟩ => ?_⟩
  by_contra hlt
  exact hgreatest j (Nat.lt_of_not_le hlt) hj hj'

/-- The change and the fee are what is left over. -/
theorem sum_fanout {leftover n : ℕ}
    (h : Clears leftover inputs inputBytes feeRatePerKb dustThreshold n) :
    (fanout leftover inputs inputBytes feeRatePerKb n).1.sum +
      (fanout leftover inputs inputBytes feeRatePerKb n).2 = leftover := by
  unfold fanout
  obtain hzero | ⟨hfee, -⟩ := h
  · rw [if_pos hzero, List.sum_nil, Nat.zero_add]
  · split_ifs with hzero
    · rw [List.sum_nil, Nat.zero_add]
    · dsimp only
      rw [sum_distributeEvenly (Nat.pos_of_ne_zero hzero)]
      exact Nat.sub_add_cancel hfee

theorem finalizeFanout_conserves (h : amount ≤ r.totalSelected) :
    amount +
      (finalizeFanout r amount inputs inputBytes feeRatePerKb dustThreshold target maxOutputs).1.sum +
      (finalizeFanout r amount inputs inputBytes feeRatePerKb dustThreshold target maxOutputs).2 =
        r.totalSelected := by
  obtain ⟨m, heq, ⟨-, hclears⟩, -⟩ := @finalizeFanout_eq r amount inputs inputBytes feeRatePerKb
    dustThreshold target maxOutputs
  have hsum := sum_fanout hclears
  rw [heq]
  omega

/-- With change the fee is that of the outputs. -/
theorem finalizeFanout_fee (h :
      (finalizeFanout r amount inputs inputBytes feeRatePerKb dustThreshold target maxOutputs).1 ≠
        []) :
    (finalizeFanout r amount inputs inputBytes feeRatePerKb dustThreshold target maxOutputs).2 =
      feeFor inputs (1 + (finalizeFanout r amount inputs inputBytes feeRatePerKb dustThreshold target
        maxOutputs).1.length) feeRatePerKb inputBytes := by
  obtain ⟨m, heq, -⟩ := @finalizeFanout_eq r amount inputs inputBytes feeRatePerKb
    dustThreshold target maxOutputs
  rw [heq] at h ⊢
  unfold fanout at h ⊢
  split_ifs at h ⊢ with hzero
  · exact absurd rfl h
  · rw [length_distributeEvenly]

/-- The fan-out of what covers the fee for one output. -/
theorem fannedOut
    (hcovers : amount + feeFor inputs 1 feeRatePerKb inputBytes ≤ r.totalSelected) :
    FannedOut amount r.totalSelected inputs inputBytes feeRatePerKb dustThreshold target maxOutputs
      (finalizeFanout r amount inputs inputBytes feeRatePerKb dustThreshold target maxOutputs).1
      (finalizeFanout r amount inputs inputBytes feeRatePerKb dustThreshold target maxOutputs).2 := by
  have hconserved := @finalizeFanout_conserves r amount inputs inputBytes feeRatePerKb
    dustThreshold target maxOutputs (by omega)
  obtain ⟨m, heq, hlargest⟩ := @finalizeFanout_eq r amount inputs inputBytes feeRatePerKb
    dustThreshold target maxOutputs
  obtain ⟨⟨hm, hclears⟩, hgreatest⟩ := hlargest
  have hcount : m ≤ max 1 maxOutputs := hm.trans (min_le_left _ _)
  rw [heq] at hconserved ⊢
  by_cases hzero : m = 0
  · -- no change: everything goes to the fee
    subst hzero
    have hfanout : fanout (r.totalSelected - amount) inputs inputBytes feeRatePerKb 0 =
        ([], r.totalSelected - amount) := if_pos rfl
    rw [hfanout] at hconserved ⊢
    refine ⟨hconserved, Nat.zero_le _, by simp, by simp, ?_, fun h => absurd rfl h,
      ⟨⟨hm, hclears⟩, hgreatest⟩, fun _ => ?_⟩
    · rw [List.length_nil, Nat.add_zero]
      omega
    · by_cases hne : r.totalSelected = amount
      · exact .inl hne
      · right
        have hfirst : 1 ≤ divCeil (r.totalSelected - amount) (max 1 target) := by
          rw [divCeil, Nat.one_le_div_iff (by omega)]
          omega
        have hnot : ¬ Clears (r.totalSelected - amount) inputs inputBytes feeRatePerKb
            dustThreshold 1 := fun hone =>
          absurd (hgreatest ⟨le_min (le_max_left _ _) hfirst, hone⟩) (by decide)
        have htwo : 1 + (0 + 1) = 2 := rfl
        rw [clears_succ (n := 0), not_and_or, htwo, Nat.zero_add, Nat.div_one] at hnot
        omega
  · obtain hzero' | ⟨-, hdust⟩ := id hclears
    · exact absurd hzero' hzero
    have hfanout : fanout (r.totalSelected - amount) inputs inputBytes feeRatePerKb m =
        (distributeEvenly (r.totalSelected - amount - feeFor inputs (1 + m) feeRatePerKb inputBytes)
          m, feeFor inputs (1 + m) feeRatePerKb inputBytes) := if_neg hzero
    rw [hfanout] at hconserved ⊢
    refine ⟨hconserved, ?_, hdust, fun x hx y hy => ?_, ?_, fun _ => ?_, ?_, fun hnil => ?_⟩
    · rw [length_distributeEvenly]
      exact hcount
    · have hx' := mem_distributeEvenly hx
      have hy' := mem_distributeEvenly hy
      omega
    · rw [length_distributeEvenly]
    · rw [length_distributeEvenly]
    · rw [length_distributeEvenly]
      exact ⟨⟨hm, hclears⟩, hgreatest⟩
    · have hlen := congrArg List.length hnil
      rw [length_distributeEvenly, List.length_nil] at hlen
      exact absurd hlen hzero

end Finalize

end Goldcoin
