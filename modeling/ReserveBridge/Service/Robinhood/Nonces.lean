-- SUMMARY: The nonces of a submitter account: over any interleaving of observations and allocations they are held once, grow, respect what was observed, and are given back when asked for again.
import ReserveBridge.Service.Robinhood.Forward

/-!
# The nonces of a submitter

The next nonce of an account on a chain is one above every nonce of its rows,
and not below the count last observed. Rows keep their nonces and the observed
count only grows, so the rule stays true of everything that happened before.
-/

namespace Service.Robinhood
open Guard

namespace Tables

variable {T T' : Tables} {id submitter chainId : ℕ} {t : Tx} {c : ℤ}

/-! ## The highest nonce -/

theorem le_highestNonce {n : ℤ} (hget : T.transactions.get? id = some t)
    (hsubmitter : t.submitter = some submitter) (hnonce : t.nonce = some n) :
    ∃ m, T.highestNonce submitter t.chainId = some m ∧ n ≤ m := by
  have hmem : n ∈ T.transactions.rows.entries.filterMap fun e =>
      if e.2.submitter = some submitter ∧ e.2.chainId = t.chainId then e.2.nonce else none :=
    List.mem_filterMap.mpr ⟨(id, t), Store.mem_of_get? hget, by simp [hsubmitter, hnonce]⟩
  cases hmax : T.highestNonce submitter t.chainId with
  | none =>
    rw [highestNonce, List.max?_eq_none_iff] at hmax
    rw [hmax] at hmem
    simp at hmem
  | some m => exact ⟨m, rfl, (List.max?_eq_some_iff.mp hmax).2 n hmem⟩

theorem exists_of_highestNonce {m : ℤ} (h : T.highestNonce submitter c = some m) :
    ∃ id t, T.transactions.get? id = some t ∧ t.nonce = some m := by
  obtain ⟨⟨id, t⟩, hmem, ht⟩ := List.mem_filterMap.mp (List.max?_eq_some_iff.mp h).1
  split_ifs at ht
  exact ⟨id, t, Store.get?_of_mem hmem, ht⟩

/-! ## The observed count -/

theorem observedNonce_le_of_step {op : Op} (h : T.step op = some T') {m : ℤ}
    (hm : T.observedNonce submitter c = some m) :
    ∃ m', T'.observedNonce submitter c = some m' ∧ m ≤ m' := by
  have hkeep (hsubmitters : T'.submitters = T.submitters) :
      ∃ m', T'.observedNonce submitter c = some m' ∧ m ≤ m' :=
    ⟨m, by rwa [observedNonce, hsubmitters], le_rfl⟩
  cases effect_of_step h with
  | unchanged => exact ⟨m, hm, le_rfl⟩
  | observed hchain hrows hsubmitters =>
    rw [hsubmitters]
    split_ifs
    · exact ⟨_, rfl, by simp [hm]⟩
    · exact ⟨m, hm, le_rfl⟩
  | inserted hsubject hnone hadmits hrows hsubmitters => exact hkeep hsubmitters
  | updated hget hedge hsets => exact hkeep hsets.submitters
  | referenced hrows hsubmitters => exact hkeep hsubmitters

/-- The observed count only grows. -/
theorem observedNonce_le_of_run {m : ℤ} (hm : T.observedNonce submitter c = some m)
    (ops : List Op) : ∃ m', (T.run ops).observedNonce submitter c = some m' ∧ m ≤ m' := by
  let Kept (T : Tables) : Prop := ∃ m', T.observedNonce submitter c = some m' ∧ m ≤ m'
  have hkept : ∀ T op T', Kept T → Tables.step T op = some T' → Kept T' := by
    rintro T op T' ⟨m₁, hm₁, hle⟩ hstep
    obtain ⟨m₂, hm₂, hle₂⟩ := observedNonce_le_of_step hstep hm₁
    exact ⟨m₂, hm₂, hle.trans hle₂⟩
  exact Run.invariant hkept ⟨m, hm, le_rfl⟩ ops

/-- An observation of an account on a chain is recorded. -/
theorem exists_recordSubmitterNonce (T : Tables) (submitter observed : ℕ) (now : ℤ)
    (hchain : 0 < asI64 chainId) (hobserved : observed < 2 ^ 63) :
    ∃ n T', T.recordSubmitterNonce submitter chainId observed now = .ok (n, T') ∧
      ∃ m, T'.observedNonce submitter (asI64 chainId) = some m ∧ (observed : ℤ) ≤ m := by
  have hsame : asI64 observed = observed := asI64_of_lt (by omega) (by omega)
  let highest := max ((T.observedNonce submitter (asI64 chainId)).getD 0) (asI64 observed)
  let recorded : SubmitterState := ⟨highest, now⟩
  let T' : Tables := { T with
    submitters := T.submitters.upsert (submitter, asI64 chainId) recorded fun _ => recorded }
  refine ⟨asU64 highest, T', ?_, highest, ?_, ?_⟩
  · simp only [recordSubmitterNonce, bind_eq_ok, require_eq_ok, exists_unit, pure_eq_ok]
    exact ⟨hchain, rfl⟩
  · simp only [T', observedNonce, Store.get?_upsert, if_true]
    cases T.submitters.get? (submitter, asI64 chainId) <;> rfl
  · rw [← hsame]
    exact le_max_right _ _

/-- What was observed stays a lower bound of the observed count. -/
theorem observed_le_of_run {observed : ℕ} {now : ℤ} (hchain : 0 < asI64 chainId)
    (hobserved : observed < 2 ^ 63) (post : List Op) :
    ∃ m, (T.run (.recordSubmitterNonce submitter chainId observed now :: post)).observedNonce
      submitter (asI64 chainId) = some m ∧ (observed : ℤ) ≤ m := by
  obtain ⟨n, T', hrecord, m, hm, hle⟩ :=
    T.exists_recordSubmitterNonce submitter observed now hchain hobserved
  have hstep : T.step (.recordSubmitterNonce submitter chainId observed now) = some T' := by
    rw [step, toOption_eq_some]
    simp only [apply, bind_eq_ok, pure_eq_ok]
    exact ⟨_, hrecord, rfl⟩
  obtain ⟨m', hm', hle'⟩ := observedNonce_le_of_run hm post
  refine ⟨m', ?_, hle.trans hle'⟩
  rw [run, Run.final_cons, Run.advance_of_some hstep]
  exact hm'

/-! ## Allocation -/

/-- An operation that has a nonce is given it back, whoever else asked for one. -/
theorem allocateNonce_of_some {now : ℤ} {m : ℤ} (hget : T.transactions.get? id = some t)
    (hnonce : t.nonce = some m) (hsubmitter : t.submitter = some submitter)
    (hchain : t.chainId = asI64 chainId) :
    T.allocateNonce id submitter chainId now = .ok (asU64 m, T) := by
  simp only [allocateNonce, bind_eq_ok, require_eq_ok, exists_unit, tx_eq_ok]
  refine ⟨t, hget, hchain, ?_⟩
  simp only [hnonce, bind_eq_ok, require_eq_ok, exists_unit, pure_eq_ok, and_true]
  exact hsubmitter

theorem step_of_allocateNonce {now : ℤ} {n : ℕ}
    (h : T.allocateNonce id submitter chainId now = .ok (n, T')) :
    T.step (.allocateNonce id submitter chainId now) = some T' := by
  rw [step, toOption_eq_some]
  simp only [apply, bind_eq_ok, pure_eq_ok]
  exact ⟨_, h, rfl⟩

/-- What a call returns: the nonce its row had, or the next one. -/
theorem allocateNonce_cases {now : ℤ} {n : ℕ}
    (h : T.allocateNonce id submitter chainId now = .ok (n, T')) :
    ∃ t t' m, T.transactions.get? id = some t ∧ T'.transactions.get? id = some t' ∧
      n = asU64 m ∧ t'.nonce = some m ∧ t'.submitter = some submitter ∧
      t.chainId = asI64 chainId ∧ t'.chainId = asI64 chainId ∧
      (t.nonce = some m ∧ T' = T ∨
        t.nonce = none ∧ m = T.nextNonce submitter (asI64 chainId)) := by
  simp only [allocateNonce, bind_eq_ok, require_eq_ok, exists_unit, tx_eq_ok] at h
  obtain ⟨t, hget, hchain, h⟩ := h
  cases hnonce : t.nonce with
  | some m =>
    rw [hnonce] at h
    simp only [bind_eq_ok, require_eq_ok, exists_unit, pure_eq_ok] at h
    obtain ⟨hsubmitter, h⟩ := h
    obtain ⟨rfl, rfl⟩ := Prod.mk.inj h
    exact ⟨t, t, m, hget, hget, rfl, hnonce, hsubmitter, hchain, hchain, .inl ⟨hnonce, rfl⟩⟩
  | none =>
    rw [hnonce] at h
    simp only [bind_eq_ok, require_eq_ok, exists_unit, pure_eq_ok] at h
    obtain ⟨-, T₁, hset, h⟩ := h
    obtain ⟨rfl, rfl⟩ := Prod.mk.inj h
    have hget' := (setTx_eq_ok hset hget).get? id
    rw [if_pos rfl] at hget'
    exact ⟨t, _, _, hget, hget', rfl, rfl, rfl, hchain, hchain, .inr ⟨hnonce, by rw [hchain]⟩⟩

/-! ## Every run -/

/-- The nonces of `ops` are below the largest `i64`: those observed, and those
of the rows at any time. -/
structure NoncesBounded (ops : List Op) : Prop where
  observed : ∀ s c n now, Op.recordSubmitterNonce s c n now ∈ ops → n < 2 ^ 63 - 1
  held : ∀ pre, pre <+: ops → ∀ id t, (after pre).transactions.get? id = some t →
    ∀ n ∈ t.nonce, n < 2 ^ 63 - 1

theorem after_append {pre post : List Op} : after (pre ++ post) = (after pre).run post :=
  run_append

/-- The nonce of a row, returned as a `u64`. -/
theorem NoncesBounded.asU64_nonce {pre post : List Op} (h : NoncesBounded (pre ++ post)) {n : ℤ}
    (hget : (after pre).transactions.get? id = some t) (hnonce : t.nonce = some n) :
    (asU64 n : ℤ) = n := by
  have hlt := h.held pre (List.prefix_append pre post) id t hget n hnonce
  exact asU64_of_nonneg (((after pre).transactions.checked id t hget).nonce_nonneg n hnonce)
    (by omega)

/-- A nonce that was given to an operation is below the next one of its
account. -/
theorem NoncesBounded.lt_nextNonce {pre post : List Op} (h : NoncesBounded (pre ++ post)) {n : ℤ}
    (hget : (after pre).transactions.get? id = some t) (hsubmitter : t.submitter = some submitter)
    (hnonce : t.nonce = some n) : n < (after pre).nextNonce submitter t.chainId := by
  obtain ⟨m, hm, hle⟩ := le_highestNonce hget hsubmitter hnonce
  obtain ⟨id', t', hget', hnonce'⟩ := exists_of_highestNonce hm
  have hlt := h.held pre (List.prefix_append pre post) id' t' hget' m hnonce'
  have hnonneg := ((after pre).transactions.checked id' t' hget').nonce_nonneg m hnonce'
  refine lt_max_of_lt_left ?_
  rw [hm, Option.map_some, Option.getD_some, asI64_of_lt (by omega) (by omega)]
  omega

/-- A nonce that a call returned is one of its row from then on. -/
theorem nonce_of_run {now : ℤ} {n : ℕ} {T' : Tables}
    (h : T.allocateNonce id submitter chainId now = .ok (n, T')) (post : List Op) :
    ∃ t m, (T.run (.allocateNonce id submitter chainId now :: post)).transactions.get? id = some t ∧
      n = asU64 m ∧ t.nonce = some m ∧ t.submitter = some submitter ∧
      t.chainId = asI64 chainId := by
  obtain ⟨t₀, t₁, m, -, hget, rfl, hnonce, hsubmitter, -, hchain, -⟩ := allocateNonce_cases h
  obtain ⟨t, hget', hadvances⟩ := advances_of_run hget post
  obtain ⟨hnonce', hsubmitter'⟩ := hadvances.nonce (by rw [hnonce]; rfl)
  refine ⟨t, m, ?_, rfl, hnonce'.trans hnonce, hsubmitter'.trans hsubmitter, ?_⟩
  · rw [run, Run.final_cons, Run.advance_of_some (step_of_allocateNonce h)]
    exact hget'
  · exact (congrArg Payload.chainId hadvances.payload).trans hchain

/-- The next nonce of an account is above all that were given out. -/
theorem NoncesBounded.returned_lt_nextNonce {pre mid post : List Op} {now : ℤ} {n : ℕ} {T' : Tables}
    (h : NoncesBounded (pre ++ .allocateNonce id submitter chainId now :: mid ++ post))
    (hcall : (after pre).allocateNonce id submitter chainId now = .ok (n, T')) :
    (n : ℤ) < (after (pre ++ .allocateNonce id submitter chainId now :: mid)).nextNonce submitter
      (asI64 chainId) := by
  obtain ⟨t, m, hget, rfl, hnonce, hsubmitter, hchain⟩ := nonce_of_run hcall mid
  rw [← after_append] at hget
  rw [h.asU64_nonce hget hnonce, ← hchain]
  exact h.lt_nextNonce hget hsubmitter hnonce

/-- It is not below any count that was observed. -/
theorem NoncesBounded.observed_le_nextNonce {pre post : List Op} {observed : ℕ} {now : ℤ}
    (h : NoncesBounded (pre ++ post)) (hchain : 0 < asI64 chainId)
    (hmem : .recordSubmitterNonce submitter chainId observed now ∈ pre) :
    (observed : ℤ) ≤ (after pre).nextNonce submitter (asI64 chainId) := by
  have hlt := h.observed submitter chainId observed now (List.mem_append_left post hmem)
  obtain ⟨pre₁, pre₂, rfl⟩ := List.append_of_mem hmem
  obtain ⟨m, hm, hle⟩ : ∃ m, ((after pre₁).run (.recordSubmitterNonce submitter chainId observed now ::
      pre₂)).observedNonce submitter (asI64 chainId) = some m ∧ (observed : ℤ) ≤ m :=
    observed_le_of_run hchain (by omega) pre₂
  rw [← after_append] at hm
  refine le_max_of_le_right ?_
  rwa [hm]

/-- Nonces and observed counts stay below `bound`. -/
structure BoundedBy (T : Tables) (bound : ℤ) : Prop where
  held : ∀ id t, T.transactions.get? id = some t → ∀ n ∈ t.nonce, n < bound
  observed : ∀ s c, ∀ n ∈ T.observedNonce s c, n < bound

/-- A call exceeds the bound by one at most. -/
theorem BoundedBy.step {op : Op} {bound : ℤ} (h : BoundedBy T bound) (hbound : 0 < bound)
    (hmax : bound < 2 ^ 63) (hstep : T.step op = some T')
    (hobserved : ∀ s c n now, op = .recordSubmitterNonce s c n now → n < bound) :
    BoundedBy T' (bound + 1) := by
  have hkept (n : ℤ) (hn : n < bound) : n < bound + 1 := by omega
  have hsame (hsubmitters : T'.submitters = T.submitters) (s : ℕ) (c : ℤ) :
      ∀ n ∈ T'.observedNonce s c, n < bound + 1 := fun n hn =>
    hkept n (h.observed s c n (by rwa [observedNonce, hsubmitters] at hn))
  cases effect_of_step hstep with
  | unchanged =>
    exact ⟨fun id t hget n hn => hkept n (h.held id t hget n hn),
      fun s c n hn => hkept n (h.observed s c n hn)⟩
  | @observed submitter chainId observed now hchain T' hrows hsubmitters =>
    refine ⟨fun id t hget n hn => hkept n (h.held id t (by rwa [hrows] at hget) n hn), fun s c n hn => ?_⟩
    rw [hsubmitters] at hn
    split_ifs at hn
    · obtain rfl := Option.some.inj hn
      have hnew : observed < bound := hobserved submitter chainId observed now rfl
      rw [asI64_of_lt (by omega) (by omega)]
      cases hold : T.observedNonce s c with
      | none =>
        rw [Option.getD_none]
        omega
      | some m =>
        have hm := h.observed s c m hold
        rw [Option.getD_some]
        omega
    · exact hkept n (h.observed s c n hn)
  | @inserted new now T' hsubject hnone hadmits hrows hsubmitters =>
    refine ⟨fun id t hget n hn => ?_, hsame hsubmitters⟩
    rw [hrows] at hget
    split_ifs at hget
    · obtain rfl := Option.some.inj hget
      cases hn
    · exact hkept n (h.held id t hget n hn)
  | @updated op id' t₀ t' T' hget₀ hedge hsets =>
    refine ⟨fun id t hget n hn => ?_, hsame hsets.submitters⟩
    rw [hsets.get?] at hget
    split_ifs at hget
    · obtain rfl := Option.some.inj hget
      cases hedge with
      | @allocated submitter chainId now next hchain hnone hstate hnext =>
        obtain rfl : next = n := Option.some.inj hn
        rw [hnext]
        refine max_lt ?_ ?_
        · cases hhighest : T.highestNonce submitter t₀.chainId with
          | none =>
            rw [Option.map_none, Option.getD_none]
            omega
          | some m =>
            obtain ⟨id₁, t₁, hget₁, hm⟩ := exists_of_highestNonce hhighest
            have hlt := h.held id₁ t₁ hget₁ m hm
            have hnonneg := (T.transactions.checked id₁ t₁ hget₁).nonce_nonneg m hm
            rw [Option.map_some, Option.getD_some, asI64_of_lt (by omega) (by omega)]
            omega
        · cases hobs : T.observedNonce submitter t₀.chainId with
          | none =>
            rw [Option.getD_none]
            omega
          | some m =>
            have hlt := h.observed _ _ m hobs
            rw [Option.getD_some]
            omega
      | _ => exact hkept n (h.held id' t₀ hget₀ n hn)
    · exact hkept n (h.held id t hget n hn)
  | referenced hrows hsubmitters =>
    exact ⟨fun id t hget n hn => hkept n (h.held id t (by rwa [hrows] at hget) n hn), hsame hsubmitters⟩

theorem boundedBy_after {ops : List Op} (hlength : ops.length < 2 ^ 62)
    (hobserved : ∀ s c n now, Op.recordSubmitterNonce s c n now ∈ ops → n < 2 ^ 62) :
    BoundedBy (after ops) (2 ^ 62 + ops.length) := by
  induction ops using List.reverseRecOn with
  | nil =>
    constructor
    · intro id t hget
      cases hget
    · intro s c n hn
      cases hn
  | append_singleton ops op ih =>
    rw [List.length_append, List.length_singleton] at hlength ⊢
    have hbefore := ih (by omega) fun s c n now hmem =>
      hobserved s c n now (List.mem_append_left _ hmem)
    rw [after_append, Nat.cast_add, Nat.cast_one, ← add_assoc]
    cases hstep : (after ops).step op with
    | none =>
      have hsame : (after ops).run [op] = after ops := Run.advance_of_none hstep
      rw [hsame]
      exact ⟨fun id t hget n hn => (hbefore.held id t hget n hn).trans (by omega),
        fun s c n hn => (hbefore.observed s c n hn).trans (by omega)⟩
    | some T' =>
      have hnext : (after ops).run [op] = T' := Run.advance_of_some hstep
      rw [hnext]
      refine hbefore.step (by omega) (by omega) hstep fun s c n now hop => ?_
      have hlt := hobserved s c n now (by simp [hop])
      omega

/-- It takes as many calls to exceed the bound. -/
theorem noncesBounded_of_length {ops : List Op} (hlength : ops.length < 2 ^ 62)
    (hobserved : ∀ s c n now, Op.recordSubmitterNonce s c n now ∈ ops → n < 2 ^ 62) :
    NoncesBounded ops where
  observed s c n now hmem := by
    have hlt := hobserved s c n now hmem
    omega
  held := by
    rintro pre ⟨post, rfl⟩ id t hget n hn
    rw [List.length_append] at hlength
    have hbounded : BoundedBy (after pre) (2 ^ 62 + pre.length) :=
      boundedBy_after (by omega) fun s c n now hmem =>
        hobserved s c n now (List.mem_append_left _ hmem)
    have hlt := hbounded.held id t hget n hn
    omega

/-- Over every interleaving of observations, allocations and everything else: an
account's nonces are held once; a new one is above all that were given out and
not below any count that was observed; a nonce is given back when it is asked
for again; and a refused call changes nothing. -/
theorem nonces_held_once (ops : List Op) (hbound : NoncesBounded ops) :
    (∀ id₁ id₂ t₁ t₂ s n, (after ops).transactions.get? id₁ = some t₁ →
      (after ops).transactions.get? id₂ = some t₂ → t₁.submitter = some s →
      t₂.submitter = some s → t₁.chainId = t₂.chainId → t₁.nonce = some n →
      t₂.nonce = some n → id₁ = id₂) ∧
    ∀ pre id s c now post, ops = pre ++ .allocateNonce id s c now :: post →
      (∀ n T', (after pre).allocateNonce id s c now = .ok (n, T') →
        ∃ t t', (after pre).transactions.get? id = some t ∧ T'.transactions.get? id = some t' ∧
          t'.nonce = some (n : ℤ) ∧ (t.nonce.isSome → t'.nonce = t.nonce ∧ T' = after pre) ∧
          (t.nonce = none →
            (∀ pre₁ id₁ now₁ pre₂, pre = pre₁ ++ .allocateNonce id₁ s c now₁ :: pre₂ →
              ∀ n₁ T₁, (after pre₁).allocateNonce id₁ s c now₁ = .ok (n₁, T₁) → n₁ < n) ∧
            ∀ observed now₁, .recordSubmitterNonce s c observed now₁ ∈ pre → observed ≤ n)) ∧
      (∀ t m, (after pre).transactions.get? id = some t → t.nonce = some m →
        t.submitter = some s → t.chainId = asI64 c →
        ∃ n : ℕ, (n : ℤ) = m ∧ (after pre).allocateNonce id s c now = .ok (n, after pre)) ∧
      ((after pre).step (.allocateNonce id s c now) = none →
        after (pre ++ [.allocateNonce id s c now]) = after pre) := by
  constructor
  · intro id₁ id₂ t₁ t₂ s n hget₁ hget₂ hs₁ hs₂ hchain hn₁ hn₂
    refine (after ops).transactions.unique id₁ id₂ t₁ t₂ (.nonce s t₁.chainId n) hget₁ hget₂ ?_ ?_
    · simp [Tx.index, hs₁, hn₁]
    · simp [Tx.index, hs₂, hn₂, hchain]
  rintro pre id s c now post rfl
  refine ⟨fun n T' hcall => ?_, fun t m hget hnonce hsubmitter hchain => ?_, fun hrefused => ?_⟩
  · obtain ⟨t, t', m, hget, hget', rfl, hnonce', hsubmitter', hchain, hchain', hcases⟩ :=
      allocateNonce_cases hcall
    -- the nonce is the row's after the call, so it is bounded
    have hafter : after (pre ++ [.allocateNonce id s c now]) = T' := by
      rw [after_append]
      exact Run.advance_of_some (step_of_allocateNonce hcall)
    have hbound' : NoncesBounded (pre ++ [.allocateNonce id s c now] ++ post) := by
      rwa [List.append_assoc]
    have hm : (asU64 m : ℤ) = m := hbound'.asU64_nonce (hafter ▸ hget') hnonce'
    refine ⟨t, t', hget, hget', by rw [hnonce', hm], fun hsome => ?_, fun hnone => ?_⟩
    · rcases hcases with ⟨hold, rfl⟩ | ⟨hnone, -⟩
      · exact ⟨hnonce'.trans hold.symm, rfl⟩
      · rw [hnone] at hsome
        cases hsome
    · rcases hcases with ⟨hold, -⟩ | ⟨-, hnext⟩
      · rw [hnone] at hold
        cases hold
      refine ⟨?_, fun observed now₁ hmem => ?_⟩
      · rintro pre₁ id₁ now₁ pre₂ rfl n₁ T₁ hcall₁
        have hlt := hbound.returned_lt_nextNonce hcall₁
        omega
      · have hpos : 0 < asI64 c :=
          hchain ▸ ((after pre).transactions.checked id t hget).payload.chainId_pos
        have hle := hbound.observed_le_nextNonce hpos hmem
        omega
  · exact ⟨asU64 m, hbound.asU64_nonce hget hnonce,
      allocateNonce_of_some hget hnonce hsubmitter hchain⟩
  · rw [after_append]
    exact Run.advance_of_none hrefused

theorem nonces_held_once_sample : ∃ n₁ n₂ T₁ T₂,
    (after (sampleOps.take 7)).allocateNonce 1 9 46630 103 = .ok (n₁, T₁) ∧
    (after (sampleOps.take 8)).allocateNonce 2 9 46630 104 = .ok (n₂, T₂) ∧ n₁ < n₂ ∧ 7 ≤ n₂ := by
  have hobserved : ∀ s c n now, Op.recordSubmitterNonce s c n now ∈ sampleOps → n < 2 ^ 62 := by
    intro s c n now hmem
    simp only [sampleOps, List.mem_cons, reduceCtorEq, false_or, or_false, List.not_mem_nil,
      Op.recordSubmitterNonce.injEq] at hmem
    omega
  have hbound : NoncesBounded sampleOps := noncesBounded_of_length (by decide) hobserved
  have hsome₁ : ((after (sampleOps.take 7)).allocateNonce 1 9 46630 103).toOption.isSome := by decide
  have hsome₂ : ((after (sampleOps.take 8)).allocateNonce 2 9 46630 104).toOption.isSome := by decide
  obtain ⟨⟨n₁, T₁⟩, h₁⟩ := Option.isSome_iff_exists.mp hsome₁
  obtain ⟨⟨n₂, T₂⟩, h₂⟩ := Option.isSome_iff_exists.mp hsome₂
  rw [toOption_eq_some] at h₁ h₂
  obtain ⟨hcall, -, -⟩ := (nonces_held_once sampleOps hbound).2 (sampleOps.take 8) 2 9 46630 104 [] rfl
  obtain ⟨t, t', hget, -, -, -, hnew⟩ := hcall n₂ T₂ h₂
  have hunallocated : ((after (sampleOps.take 8)).transactions.get? 2).map Tx.nonce = some none := by
    decide
  rw [hget, Option.map_some] at hunallocated
  obtain ⟨hearlier, hobs⟩ := hnew (Option.some.inj hunallocated)
  exact ⟨n₁, n₂, T₁, T₂, h₁, h₂, hearlier (sampleOps.take 7) 1 103 [] rfl n₁ T₁ h₁,
    hobs 7 102 (by decide)⟩

end Tables

end Service.Robinhood
