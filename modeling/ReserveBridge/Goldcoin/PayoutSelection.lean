-- SUMMARY: When the selection step of a payout finds a selection, and that it can fail for funds where some of the outputs it may spend would do.
import ReserveBridge.Goldcoin.Payout
import ReserveBridge.Goldcoin.Selection

/-!
# When a payout is funded

The selection step tries the confirmed outputs alone. Where they are
insufficient it adds the candidates, and drops the deepest of them until what
is selected is within the budget. Neither the error it goes by nor the order of
the drops looks at all that could be selected.
-/

namespace Goldcoin
open Descending Guard

/-! ## Selection from larger pools -/

section Select

variable {candidates candidates' : List VaultUtxo}
  {amount feeRatePerKb threshold redeemScriptLen maxInputs inputBytes : ℕ}

theorem Selectable.mono (hsub : candidates.Subperm candidates')
    (h : Selectable candidates amount feeRatePerKb inputBytes maxInputs) :
    Selectable candidates' amount feeRatePerKb inputBytes maxInputs := by
  obtain ⟨s, hs, hrest⟩ | ⟨u, hu, hamount⟩ := h
  · exact .inl ⟨s, hs.trans hsub, hrest⟩
  · exact .inr ⟨u, hsub.subset hu, hamount⟩

/-- A single output is found whatever the limit is. -/
theorem select_single {u : VaultUtxo} (hu : u ∈ candidates)
    (hamount : amount + feeFor 1 2 feeRatePerKb (multisigInputBytes threshold redeemScriptLen) ≤
      u.amount) :
    ∃ r, select candidates amount feeRatePerKb threshold redeemScriptLen maxInputs = .ok r := by
  unfold select
  generalize multisigInputBytes threshold redeemScriptLen = inputBytes at *
  cases hexact : exactMatch amount feeRatePerKb inputBytes candidates with
  | some u =>
    simp only [hexact]
    exact ⟨_, rfl⟩
  | none =>
    cases hsingle : smallestSingle amount feeRatePerKb inputBytes candidates with
    | none => exact absurd hamount (smallestSingle_eq_none.mp hsingle u hu)
    | some single =>
      simp only [hexact, hsingle]
      split
      · split_ifs
        · exact ⟨_, rfl⟩
        · exact ⟨_, rfl⟩
      · exact ⟨_, rfl⟩

/-- Where the limit is 0 a selection is a single output. -/
theorem select_ok_iff (hsorted : Sorted VaultUtxo.amount candidates) :
    (∃ r, select candidates amount feeRatePerKb threshold redeemScriptLen maxInputs = .ok r) ↔
      Selectable candidates amount feeRatePerKb (multisigInputBytes threshold redeemScriptLen)
        (max 1 maxInputs) := by
  constructor
  · rintro ⟨r, h⟩
    exact (select_eq_ok_max h).selectable
  · intro h
    by_cases hmax : 1 ≤ maxInputs
    · rw [max_eq_right hmax] at h
      exact select_complete hsorted h
    · obtain ⟨s, hsub, hpos, hlen, hcovers⟩ | hexact := h
      · have hone : s.length = 1 := by omega
        obtain ⟨u, rfl⟩ := List.length_eq_one_iff.mp hone
        exact select_single (hsub.subset List.mem_cons_self) (by simpa [total] using hcovers)
      · exact select_complete hsorted (.inr hexact)

/-- Which error a failed selection returns depends on the number of outputs. -/
theorem select_eq_insufficient {required available : ℕ}
    (h : select candidates amount feeRatePerKb threshold redeemScriptLen maxInputs =
      .error (.insufficient required available)) : candidates.length ≤ maxInputs := by
  obtain ⟨-, -, hacc | ⟨hacc, -⟩⟩ := select_eq_error h rfl
  · cases (@accumulate_eq_error _ _ _ _ [] _ _ hacc).1
  · have hlen := @length_le_of_accumulate_eq_none _ _ _ _ [] _ hacc (Nat.zero_le _)
    rwa [List.length_nil, Nat.zero_add] at hlen

theorem select_eq_tooManyInputs {limit : ℕ}
    (h : select candidates amount feeRatePerKb threshold redeemScriptLen maxInputs =
      .error (.tooManyInputs limit)) : maxInputs < candidates.length := by
  obtain ⟨-, -, hacc | ⟨-, _, _, herror⟩⟩ := select_eq_error h rfl
  · have hlen := (@accumulate_eq_error _ _ _ _ [] _ _ hacc).2
    rwa [List.length_nil, Nat.zero_add] at hlen
  · cases herror

end Select

/-! ## The rounds -/

section Rounds

variable {policy : PayoutPolicy} {vault : MultisigVault} {payoutAtomic : ℕ}
  {confirmed : List VaultUtxo} {zeroConf : List ZeroConfChangeCandidate}

/-- The candidates without the deepest one. -/
def dropDeepest (zeroConf : List ZeroConfChangeCandidate) : List ZeroConfChangeCandidate :=
  match deepest zeroConf with
  | some i => zeroConf.eraseIdx i
  | none => zeroConf

/-- The candidates of a round. -/
def candidatesAt (zeroConf : List ZeroConfChangeCandidate) (round : ℕ) :
    List ZeroConfChangeCandidate :=
  dropDeepest^[round] zeroConf

theorem candidatesAt_succ {round : ℕ} :
    candidatesAt zeroConf (round + 1) = candidatesAt (dropDeepest zeroConf) round :=
  Function.iterate_succ_apply _ _ _

theorem candidatesAt_of_none (h : deepest zeroConf = none) (round : ℕ) :
    candidatesAt zeroConf round = zeroConf := by
  have hfixed : dropDeepest zeroConf = zeroConf := by
    rw [dropDeepest, h]
  exact Function.iterate_fixed hfixed round

theorem dropDeepest_sublist : (dropDeepest zeroConf).Sublist zeroConf := by
  unfold dropDeepest
  split
  · exact List.eraseIdx_sublist _ _
  · exact List.Sublist.refl _

theorem candidatesAt_sublist {round round' : ℕ} (h : round ≤ round') :
    (candidatesAt zeroConf round').Sublist (candidatesAt zeroConf round) := by
  induction h with
  | refl => exact List.Sublist.refl _
  | step _ ih =>
    rw [candidatesAt, Function.iterate_succ_apply']
    exact dropDeepest_sublist.trans ih

theorem combinedPool_subperm {zeroConf' : List ZeroConfChangeCandidate}
    (h : zeroConf'.Sublist zeroConf) :
    (combinedPool confirmed zeroConf').Subperm (combinedPool confirmed zeroConf) := by
  have hall : (confirmed ++ zeroConf'.map ZeroConfChangeCandidate.utxo).Sublist
      (confirmed ++ zeroConf.map ZeroConfChangeCandidate.utxo) :=
    (h.map _).append_left confirmed
  exact (List.perm_insertionSort _ _).subperm.trans
    (hall.subperm.trans (List.perm_insertionSort _ _).symm.subperm)

theorem combinedPool_sorted : Sorted VaultUtxo.amount (combinedPool confirmed zeroConf) := by
  have hpairwise : (combinedPool confirmed zeroConf).Pairwise fun u v => u.poolKey ≤ v.poolKey :=
    List.pairwise_insertionSort _ _
  refine hpairwise.imp fun {u v} h => ?_
  rcases (Prod.Lex.le_iff.mp h) with hlt | ⟨heq, -⟩
  · exact le_of_lt (OrderDual.toDual_lt_toDual.mp hlt)
  · exact (OrderDual.toDual_inj.mp heq).ge

/-- A round before one that selects something selects something. -/
theorem selectFrom_earlier {round round' : ℕ} (hle : round ≤ round') {selection : SelectionResult}
    (h : selectFrom policy vault payoutAtomic
      (combinedPool confirmed (candidatesAt zeroConf round')) = .ok selection) :
    ∃ s, selectFrom policy vault payoutAtomic
      (combinedPool confirmed (candidatesAt zeroConf round)) = .ok s := by
  have hselectable := (select_ok_iff combinedPool_sorted).mp ⟨selection, h⟩
  exact (select_ok_iff combinedPool_sorted).mpr
    (hselectable.mono (combinedPool_subperm (candidatesAt_sublist hle)))

/-- What a round with these candidates selects is within the budget. -/
def RoundSucceeds (policy : PayoutPolicy) (vault : MultisigVault) (payoutAtomic : ℕ)
    (confirmed : List VaultUtxo) (zeroConf : List ZeroConfChangeCandidate) : Prop :=
  ∃ s, selectFrom policy vault payoutAtomic (combinedPool confirmed zeroConf) = .ok s ∧
    withinBudget policy zeroConf s.selected = true

theorem selectRound_eq_ok_some {selection : SelectionResult} :
    selectRound policy vault payoutAtomic confirmed zeroConf = .ok (some selection) ↔
      selectFrom policy vault payoutAtomic (combinedPool confirmed zeroConf) = .ok selection ∧
        withinBudget policy zeroConf selection.selected = true := by
  refine ⟨selectRound_eq_some, fun ⟨hfound, hwithin⟩ => ?_⟩
  simp only [selectRound, bind_eq_ok, pure_eq_ok]
  exact ⟨selection, hfound, if_pos hwithin⟩

/-- The loop finds a selection exactly where one of its rounds does. -/
theorem selectWithin_ok_iff {rounds : ℕ} :
    (∃ s, selectWithin policy vault payoutAtomic confirmed rounds zeroConf = .ok s) ↔
      ∃ round ≤ rounds, RoundSucceeds policy vault payoutAtomic confirmed
        (candidatesAt zeroConf round) := by
  induction rounds generalizing zeroConf with
  | zero =>
    simp only [selectWithin, bind_eq_ok, orFail_eq_ok]
    constructor
    · rintro ⟨s, found, hround, rfl⟩
      exact ⟨0, le_rfl, s, selectRound_eq_ok_some.mp hround⟩
    · rintro ⟨round, hround, s, hs⟩
      obtain rfl := Nat.le_zero.mp hround
      exact ⟨s, some s, selectRound_eq_ok_some.mpr hs, rfl⟩
  | succ rounds ih =>
    cases hround : selectRound policy vault payoutAtomic confirmed zeroConf with
    | error e =>
      -- a later round would find something only if this one did
      simp only [selectWithin, hround, bind_eq_ok]
      constructor
      · rintro ⟨_, _, h, -⟩
        cases h
      · rintro ⟨round, -, s, hs, -⟩
        obtain ⟨first, hfirst⟩ := selectFrom_earlier (Nat.zero_le round) hs
        have hfirst : selectFrom policy vault payoutAtomic (combinedPool confirmed zeroConf) =
            .ok first := hfirst
        rw [selectRound, hfirst] at hround
        cases hround
    | ok found =>
      cases found with
      | some s =>
        simp only [selectWithin, hround]
        exact ⟨fun _ => ⟨0, Nat.zero_le _, s, selectRound_eq_ok_some.mp hround⟩, fun _ => ⟨s, rfl⟩⟩
      | none =>
        have hzero : ¬ RoundSucceeds policy vault payoutAtomic confirmed zeroConf := by
          rintro ⟨s, hs⟩
          rw [selectRound_eq_ok_some.mpr hs] at hround
          cases hround
        cases hdeepest : deepest zeroConf with
        | none =>
          simp only [selectWithin, hround, hdeepest]
          constructor
          · rintro ⟨_, h⟩
            cases h
          · rintro ⟨round, -, h⟩
            rw [candidatesAt_of_none hdeepest] at h
            exact absurd h hzero
        | some i =>
          have hdrop : dropDeepest zeroConf = zeroConf.eraseIdx i := by
            rw [dropDeepest, hdeepest]
          simp only [selectWithin, hround, hdeepest]
          refine Iff.trans ih ?_
          rw [← hdrop]
          constructor
          · rintro ⟨round, hle, h⟩
            exact ⟨round + 1, Nat.succ_le_succ hle, by rwa [candidatesAt_succ]⟩
          · rintro ⟨round, hle, h⟩
            cases round with
            | zero => exact absurd h hzero
            | succ round =>
              rw [candidatesAt_succ] at h
              exact ⟨round, Nat.le_of_succ_le_succ hle, h⟩

/-! ## Funding -/

/-- The candidates that may be spent. The ledger answers none for depth 0. -/
def permitted (policy : PayoutPolicy) (zeroConf : List ZeroConfChangeCandidate) :
    List ZeroConfChangeCandidate :=
  if 0 < policy.effectiveZeroConfDepth then zeroConf else []

def MultisigVault.inputBytes (vault : MultisigVault) : ℕ :=
  multisigInputBytes vault.threshold vault.redeemScript.length

/-- Some of the outputs that may be spent cover the payout, within the limit and
the budget, or one of them matches it. -/
def Fundable (policy : PayoutPolicy) (vault : MultisigVault) (payoutAtomic : ℕ)
    (confirmed : List VaultUtxo) (zeroConf : List ZeroConfChangeCandidate) : Prop :=
  (∃ s : List VaultUtxo, s.Subperm (confirmed ++ zeroConf.map ZeroConfChangeCandidate.utxo) ∧
    withinBudget policy zeroConf s = true ∧ 1 ≤ s.length ∧ s.length ≤ policy.maxInputs ∧
    payoutAtomic + feeFor s.length 2 policy.feeRatePerKb vault.inputBytes ≤ total s) ∨
  ∃ u ∈ confirmed ++ zeroConf.map ZeroConfChangeCandidate.utxo,
    withinBudget policy zeroConf [u] = true ∧
      u.amount = payoutAtomic + feeFor 1 1 policy.feeRatePerKb vault.inputBytes

/-- The confirmed outputs cover the payout by themselves. A single output is
taken even where the limit is 0. -/
def FundedByConfirmed (policy : PayoutPolicy) (vault : MultisigVault) (payoutAtomic : ℕ)
    (confirmed : List VaultUtxo) : Prop :=
  Selectable confirmed payoutAtomic policy.feeRatePerKb vault.inputBytes (max 1 policy.maxInputs)

theorem selectFrom_confirmed_iff (hsorted : Sorted VaultUtxo.amount confirmed) :
    (∃ s, selectFrom policy vault payoutAtomic confirmed = .ok s) ↔
      FundedByConfirmed policy vault payoutAtomic confirmed :=
  select_ok_iff hsorted

/-- Outputs that pay for the payout: with change, or one of them exactly. -/
def Pays (policy : PayoutPolicy) (vault : MultisigVault) (payoutAtomic : ℕ) (s : List VaultUtxo) :
    Prop :=
  (1 ≤ s.length ∧ s.length ≤ max 1 policy.maxInputs ∧
    payoutAtomic + feeFor s.length 2 policy.feeRatePerKb vault.inputBytes ≤ total s) ∨
  ∃ u, s = [u] ∧ u.amount = payoutAtomic + feeFor 1 1 policy.feeRatePerKb vault.inputBytes

/-- Some of the outputs pay for the payout, and whichever do are within the
budget. -/
structure AllWithinBudget (policy : PayoutPolicy) (vault : MultisigVault) (payoutAtomic : ℕ)
    (confirmed : List VaultUtxo) (zeroConf : List ZeroConfChangeCandidate) : Prop where
  funded : ∃ s : List VaultUtxo,
    s.Subperm (confirmed ++ zeroConf.map ZeroConfChangeCandidate.utxo) ∧
      Pays policy vault payoutAtomic s
  within : ∀ s : List VaultUtxo,
    s.Subperm (confirmed ++ zeroConf.map ZeroConfChangeCandidate.utxo) →
      Pays policy vault payoutAtomic s → withinBudget policy zeroConf s = true

theorem combinedPool_perm : (combinedPool confirmed zeroConf).Perm
    (confirmed ++ zeroConf.map ZeroConfChangeCandidate.utxo) :=
  List.perm_insertionSort _ _

/-- What is selected pays, whatever the budget is. -/
theorem selectFrom_pays {pool : List VaultUtxo} {selection : SelectionResult}
    (h : selectFrom policy vault payoutAtomic pool = .ok selection) :
    selection.selected.Subperm pool ∧ Pays policy vault payoutAtomic selection.selected := by
  cases select_eq_ok_max h with
  | exact u mem amount result =>
    subst result
    exact ⟨singleton_subperm mem, .inr ⟨u, rfl, amount⟩⟩
  | change covers subperm =>
    refine ⟨subperm, .inl ⟨covers.pos, covers.max, ?_⟩⟩
    have hcovers := covers.covers
    rwa [covers.fee, covers.sum] at hcovers

theorem Pays.selectable {pool s : List VaultUtxo} (hsub : s.Subperm pool)
    (h : Pays policy vault payoutAtomic s) :
    Selectable pool payoutAtomic policy.feeRatePerKb vault.inputBytes (max 1 policy.maxInputs) := by
  obtain ⟨hpos, hlen, hcovers⟩ | ⟨u, rfl, hamount⟩ := h
  · exact .inl ⟨s, hsub, hpos, hlen, hcovers⟩
  · exact .inr ⟨u, hsub.subset List.mem_cons_self, hamount⟩

theorem Fundable.pays (h : Fundable policy vault payoutAtomic confirmed zeroConf) :
    ∃ s : List VaultUtxo, s.Subperm (confirmed ++ zeroConf.map ZeroConfChangeCandidate.utxo) ∧
      Pays policy vault payoutAtomic s := by
  obtain ⟨s, hsub, -, hpos, hlen, hcovers⟩ | ⟨u, hu, -, hamount⟩ := h
  · exact ⟨s, hsub, .inl ⟨hpos, hlen.trans (le_max_right _ _), hcovers⟩⟩
  · exact ⟨[u], singleton_subperm hu, .inr ⟨u, rfl, hamount⟩⟩

/-- A round whose outputs are all within the budget succeeds. -/
theorem AllWithinBudget.succeeds
    (h : AllWithinBudget policy vault payoutAtomic confirmed zeroConf) :
    RoundSucceeds policy vault payoutAtomic confirmed zeroConf := by
  obtain ⟨s, hsub, hpays⟩ := h.funded
  have hselectable := hpays.selectable (hsub.trans combinedPool_perm.symm.subperm)
  obtain ⟨selection, hselection⟩ := (select_ok_iff combinedPool_sorted).mpr hselectable
  obtain ⟨hselected, hpays⟩ := selectFrom_pays hselection
  exact ⟨selection, hselection,
    h.within _ (hselected.trans combinedPool_perm.subperm) hpays⟩

/-- Without a budget the first round has all that could be selected. -/
theorem Fundable.allWithinBudget (hmode : policy.zeroConfChangeMode = .depthLimited)
    (h : Fundable policy vault payoutAtomic confirmed zeroConf) :
    AllWithinBudget policy vault payoutAtomic confirmed zeroConf := by
  refine ⟨h.pays, fun s _ _ => ?_⟩
  rw [withinBudget, hmode]

/-- A round without candidates has the confirmed outputs. -/
theorem RoundSucceeds.fundedByConfirmed
    (h : RoundSucceeds policy vault payoutAtomic confirmed []) :
    FundedByConfirmed policy vault payoutAtomic confirmed := by
  obtain ⟨s, hs, -⟩ := h
  have hselectable := (select_ok_iff combinedPool_sorted).mp ⟨s, hs⟩
  have hpool : (combinedPool confirmed []).Perm (confirmed ++ []) := combinedPool_perm
  rw [List.append_nil] at hpool
  exact hselectable.mono hpool.subperm

/-- The candidates are added exactly where the confirmed outputs are not more
than the limit. -/
theorem selectPayout_ok_iff (hsorted : Sorted VaultUtxo.amount confirmed)
    (hempty : policy.effectiveZeroConfDepth = 0 → zeroConf = []) :
    (∃ s, selectPayout policy vault payoutAtomic confirmed zeroConf = .ok s) ↔
      FundedByConfirmed policy vault payoutAtomic confirmed ∨
        confirmed.length ≤ policy.maxInputs ∧ ∃ round ≤ zeroConf.length,
          RoundSucceeds policy vault payoutAtomic confirmed (candidatesAt zeroConf round) := by
  rw [← selectFrom_confirmed_iff hsorted]
  cases hselect : selectFrom policy vault payoutAtomic confirmed with
  | ok s =>
    simp only [selectPayout, hselect]
    exact ⟨fun _ => .inl ⟨s, rfl⟩, fun _ => ⟨s, rfl⟩⟩
  | error e =>
    have hnone : ¬ ∃ s, (.error e : Except CoinSelectionError SelectionResult) = .ok s := by
      rintro ⟨_, h⟩
      cases h
    rw [or_iff_right hnone]
    cases e with
    | insufficient required available =>
      have hlen : confirmed.length ≤ policy.maxInputs := select_eq_insufficient hselect
      simp only [selectPayout, hselect]
      split_ifs with hdepth
      · rw [selectWithin_ok_iff]
        exact (and_iff_right hlen).symm
      · refine iff_of_false (by rintro ⟨_, h⟩; cases h) ?_
        rintro ⟨-, round, -, hround⟩
        have hzero := hempty (Nat.eq_zero_of_not_pos hdepth)
        subst hzero
        rw [candidatesAt_of_none rfl] at hround
        obtain ⟨s, hs⟩ := (selectFrom_confirmed_iff hsorted).mpr hround.fundedByConfirmed
        rw [hs] at hselect
        cases hselect
    | tooManyInputs limit =>
      have hlen : policy.maxInputs < confirmed.length := select_eq_tooManyInputs hselect
      simp only [selectPayout, hselect]
      refine iff_of_false ?_ fun h => absurd h.1 (Nat.not_le_of_lt hlen)
      rintro ⟨_, h⟩
      cases h

end Rounds

/-- A policy of two inputs with the shipped depths. -/
def twoInputs (mode : ZeroConfChangeMode) : PayoutPolicy where
  feeRatePerKb := 1000
  dustThreshold := 1000
  maxInputs := 2
  changeFanoutTargetAtomic := 100000000
  zeroConfChangeMaxDepth := 1
  zeroConfChangeMode := mode
  zeroConfChangeRecursiveChainLimit := 20
  changeFanoutMaxOutputs := 4

end Goldcoin
