-- SUMMARY: Splitting a vault output: the plan, its reconstruction from what is persisted, the transaction built from it, and the recognition of its outputs, which all agree.
import ReserveBridge.Goldcoin.Multisig
import ReserveBridge.Goldcoin.Selection
import ReserveBridge.Goldcoin.Tx

/-!
# Vault splits

`service/src/goldcoin/split.rs`. A split divides one output of the vault into
equal chunks. Its outputs are computed when it is planned, again when a stuck
split is reconstructed, and again when the indexer meets one of them on chain.
-/

namespace Goldcoin
open Bytes Guard

/-! ## Planning -/

def minSplitOutputs : ℕ := 2

/-- 1,000 GLC. -/
def minChunkFloorAtomic : ℕ := 1000 * 100000000

structure SplitPlan where
  source : VaultUtxo
  vaultScriptPubkey : List UInt8
  outputAmounts : List ℕ
  fee : ℕ
  deriving DecidableEq

inductive SplitError
  | invalidChunkTarget
  | notWorthSplitting (sourceAmount chunkTarget : ℕ)
  | insufficientForFee (sourceAmount fee : ℕ)
  | chunkBelowFloor (chunkAmount floor : ℕ)
  deriving DecidableEq, Repr

/-- `checked_sub`. -/
def checkedSub (a b : ℕ) : Option ℕ := if b ≤ a then some (a - b) else none

@[simp] theorem checkedSub_eq_some {a b d : ℕ} : checkedSub a b = some d ↔ b ≤ a ∧ d = a - b := by
  unfold checkedSub
  split_ifs with h
  · simp [h, eq_comm]
  · simp [h]

section Plan

variable (hash160 : List UInt8 → Vector UInt8 20) (source : VaultUtxo) (vault : MultisigVault)

def planSplit (chunkTarget feeRatePerKb : ℕ) : Except SplitError SplitPlan := do
  require (chunkTarget ≠ 0) .invalidChunkTarget
  let numOutputs := divCeil source.amount chunkTarget
  require (minSplitOutputs ≤ numOutputs) (.notWorthSplitting source.amount chunkTarget)
  let inputBytes := multisigInputBytes vault.threshold vault.redeemScript.length
  let fee := feeFor 1 numOutputs feeRatePerKb inputBytes
  let distributable ← orFail (checkedSub source.amount fee) (.insufficientForFee source.amount fee)
  let base := distributable / numOutputs
  require (minChunkFloorAtomic ≤ base) (.chunkBelowFloor base minChunkFloorAtomic)
  return {
    source := source
    vaultScriptPubkey := vault.scriptPubkey hash160
    outputAmounts := distributeEvenly distributable numOutputs
    fee := fee }

def reconstructPlan (chunkCount fee : ℕ) : Except SplitError SplitPlan := do
  let distributable ← orFail (checkedSub source.amount fee) (.insufficientForFee source.amount fee)
  return {
    source := source
    vaultScriptPubkey := vault.scriptPubkey hash160
    outputAmounts := distributeEvenly distributable chunkCount
    fee := fee }

end Plan

def matchesExpectedSplitOutput (sourceAmount fee chunkCount vout amount : ℕ) : Bool :=
  if chunkCount ≤ vout then false
  else
    match checkedSub sourceAmount fee with
    | none => false
    | some distributable => (distributeEvenly distributable chunkCount)[vout]? = some amount

/-! ## Persistence -/

/-- The figures of a plan in `vault_utxo_splits`. -/
structure SplitRow where
  sourceAmountAtomic : Int64
  chunkCount : Int64
  feeAtomic : Int64
  deriving DecidableEq

/-- The casts of `record_vault_utxo_split_built`. -/
def SplitPlan.persisted (plan : SplitPlan) : SplitRow where
  sourceAmountAtomic := (UInt64.ofNat plan.source.amount).toInt64
  chunkCount := (UInt64.ofNat plan.outputAmounts.length).toInt64
  feeAtomic := (UInt64.ofNat plan.fee).toInt64

/-- A column read back with `as u64`. -/
def readColumn (column : Int64) : ℕ := column.toUInt64.toNat

theorem readColumn_toInt64 {n : ℕ} (h : n < 2 ^ 64) : readColumn (UInt64.ofNat n).toInt64 = n := by
  rw [readColumn, UInt64.toUInt64_toInt64]
  exact UInt64.toNat_ofNat_of_lt' h

/-! ## The transaction -/

def buildUnsignedSplitTx (plan : SplitPlan) : Transaction where
  version := 1
  inputs := [TxIn.unsigned plan.source.txid (UInt32.ofNat plan.source.vout)]
  outputs := plan.outputAmounts.map fun amount => ⟨UInt64.ofNat amount, plan.vaultScriptPubkey⟩
  locktime := 0

inductive SplitVerifyError
  | inputCountMismatch (count : ℕ)
  | inputMismatch
  | outputCountMismatch (expected actual : ℕ)
  | outputScriptMismatch (index : ℕ)
  | outputAmountMismatch (index expected actual : ℕ)
  | valueNotConserved (sourceAmount outputs fee : ℕ)
  deriving DecidableEq, Repr

/-- The loop over the outputs and the planned amounts, from an index on. -/
def verifySplitOutputs (vaultScriptPubkey : List UInt8) :
    ℕ → List TxOut → List ℕ → Except SplitVerifyError Unit
  | i, out :: outputs, expected :: amounts => do
    require (out.scriptPubkey = vaultScriptPubkey) (.outputScriptMismatch i)
    require (out.valueAtomic.toNat = expected)
      (.outputAmountMismatch i expected out.valueAtomic.toNat)
    verifySplitOutputs vaultScriptPubkey (i + 1) outputs amounts
  | _, _, _ => .ok ()

def verifySplitTx (tx : Transaction) (plan : SplitPlan) : Except SplitVerifyError Unit :=
  match tx.inputs with
  | [input] => do
    require (input.prevTxid = plan.source.txid ∧ input.prevVout.toNat = plan.source.vout)
      .inputMismatch
    require (tx.outputs.length = plan.outputAmounts.length)
      (.outputCountMismatch plan.outputAmounts.length tx.outputs.length)
    verifySplitOutputs plan.vaultScriptPubkey 0 tx.outputs plan.outputAmounts
    let outputsTotal := wrappingSum plan.outputAmounts
    require (plan.source.amount = wrappingSum [outputsTotal, plan.fee])
      (.valueNotConserved plan.source.amount outputsTotal plan.fee)
  | inputs => .error (.inputCountMismatch inputs.length)

/-! ## What a plan is -/

section Planned

variable {hash160 : List UInt8 → Vector UInt8 20} {source : VaultUtxo} {vault : MultisigVault}
  {chunkTarget feeRatePerKb : ℕ} {plan : SplitPlan}

/-- A planned split: at least two chunks above the floor that share what the fee
leaves of the source. -/
structure PlannedSplit (hash160 : List UInt8 → Vector UInt8 20) (source : VaultUtxo)
    (vault : MultisigVault) (feeRatePerKb : ℕ) (plan : SplitPlan) : Prop where
  source_eq : plan.source = source
  script : plan.vaultScriptPubkey = vault.scriptPubkey hash160
  outputs : minSplitOutputs ≤ plan.outputAmounts.length
  fee : plan.fee = feeFor 1 plan.outputAmounts.length feeRatePerKb
    (multisigInputBytes vault.threshold vault.redeemScript.length)
  fee_le : plan.fee ≤ source.amount
  amounts : plan.outputAmounts =
    distributeEvenly (source.amount - plan.fee) plan.outputAmounts.length
  floor : minChunkFloorAtomic ≤ (source.amount - plan.fee) / plan.outputAmounts.length

theorem planSplit_eq_ok (h : planSplit hash160 source vault chunkTarget feeRatePerKb = .ok plan) :
    PlannedSplit hash160 source vault feeRatePerKb plan := by
  simp only [planSplit, bind_eq_ok, require_eq_ok, exists_unit, orFail_eq_ok, checkedSub_eq_some,
    pure_eq_ok] at h
  obtain ⟨-, houtputs, distributable, ⟨hfee, rfl⟩, hfloor, rfl⟩ := h
  have hlength {d n : ℕ} : (distributeEvenly d n).length = n := length_distributeEvenly
  constructor
  case source_eq => rfl
  case script => rfl
  case outputs =>
    rw [hlength]
    exact houtputs
  case fee => rw [hlength]
  case fee_le => exact hfee
  case amounts => rw [hlength]
  case floor =>
    rw [hlength]
    exact hfloor

namespace PlannedSplit

theorem pos (h : PlannedSplit hash160 source vault feeRatePerKb plan) :
    0 < plan.outputAmounts.length :=
  lt_of_lt_of_le (by decide) h.outputs

/-- The outputs and the fee are the value of the source. -/
theorem conserved (h : PlannedSplit hash160 source vault feeRatePerKb plan) :
    plan.outputAmounts.sum + plan.fee = source.amount := by
  rw [h.amounts, sum_distributeEvenly h.pos]
  exact Nat.sub_add_cancel h.fee_le

theorem amount_le (h : PlannedSplit hash160 source vault feeRatePerKb plan) {amount : ℕ}
    (hamount : amount ∈ plan.outputAmounts) : amount ≤ source.amount := by
  have hsum := List.single_le_sum (fun _ _ => Nat.zero_le _) amount hamount
  have hconserved := h.conserved
  omega

/-- The number of chunks is below the value of the source. -/
theorem length_le (h : PlannedSplit hash160 source vault feeRatePerKb plan) :
    plan.outputAmounts.length ≤ source.amount := by
  have hone : 1 ≤ (source.amount - plan.fee) / plan.outputAmounts.length :=
    le_trans (by decide) h.floor
  have hlength := (Nat.one_le_div_iff h.pos).mp hone
  omega

theorem reconstructed (h : PlannedSplit hash160 source vault feeRatePerKb plan) :
    reconstructPlan hash160 source vault plan.outputAmounts.length plan.fee = .ok plan := by
  simp only [reconstructPlan, bind_eq_ok, orFail_eq_ok, checkedSub_eq_some, pure_eq_ok]
  refine ⟨_, ⟨h.fee_le, rfl⟩, ?_⟩
  rw [← h.amounts, ← h.script, ← h.source_eq]

/-- The outputs of the transaction are recognised, and nothing else is. -/
theorem matches_iff (h : PlannedSplit hash160 source vault feeRatePerKb plan) {vout amount : ℕ} :
    matchesExpectedSplitOutput source.amount plan.fee plan.outputAmounts.length vout amount = true ↔
      plan.outputAmounts[vout]? = some amount := by
  have hsub : checkedSub source.amount plan.fee = some (source.amount - plan.fee) :=
    checkedSub_eq_some.mpr ⟨h.fee_le, rfl⟩
  rw [matchesExpectedSplitOutput, hsub]
  split_ifs with hvout
  · rw [List.getElem?_eq_none hvout]
    simp
  · dsimp only
    rw [← h.amounts]
    exact decide_eq_true_iff

end PlannedSplit

/-- Outputs that pay the planned amounts to the script pass the loop. -/
theorem verifySplitOutputs_map {script : List UInt8} {amounts : List ℕ} (i : ℕ)
    (h : ∀ amount ∈ amounts, amount < 2 ^ 64) :
    verifySplitOutputs script i (amounts.map fun amount => ⟨UInt64.ofNat amount, script⟩) amounts =
      .ok () := by
  induction amounts generalizing i with
  | nil => rfl
  | cons amount amounts ih =>
    rw [List.forall_mem_cons] at h
    have hvalue : (UInt64.ofNat amount).toNat = amount := UInt64.toNat_ofNat_of_lt' h.1
    rw [List.map_cons, verifySplitOutputs]
    simp only [bind_eq_ok, require_eq_ok, exists_unit]
    exact ⟨trivial, hvalue, ih (i + 1) h.2⟩

end Planned

/-- For an output of the vault with a value and an index of the width the source
has, and for every configuration: what is planned is what is reconstructed from
the persisted figures, the transaction built from it passes its check, exactly
its outputs are recognised by the persisted figures, and they add up with the fee
to the value of the source. -/
theorem split_agrees (hash160 : List UInt8 → Vector UInt8 20) (source : VaultUtxo)
    (vault : MultisigVault) (chunkTarget feeRatePerKb : ℕ) (hvout : source.vout < 2 ^ 32)
    (hamount : source.amount < 2 ^ 64) (plan : SplitPlan)
    (hplan : planSplit hash160 source vault chunkTarget feeRatePerKb = .ok plan) :
    let row := plan.persisted
    let sourceAmount := readColumn row.sourceAmountAtomic
    let fee := readColumn row.feeAtomic
    let chunkCount := readColumn row.chunkCount
    let tx := buildUnsignedSplitTx plan
    reconstructPlan hash160 { source with amount := sourceAmount } vault chunkCount fee = .ok plan ∧
    verifySplitTx tx plan = .ok () ∧
    (∀ (vout : UInt32) (value : UInt64),
      matchesExpectedSplitOutput sourceAmount fee chunkCount vout.toNat value.toNat = true ↔
        ∃ out, tx.outputs[vout.toNat]? = some out ∧ out.valueAtomic = value) ∧
    (tx.outputs.map fun out => out.valueAtomic.toNat).sum + plan.fee = source.amount := by
  have h := planSplit_eq_ok hplan
  have hsmall : ∀ amount ∈ plan.outputAmounts, amount < 2 ^ 64 := fun amount hmem =>
    lt_of_le_of_lt (h.amount_le hmem) hamount
  have hvalues : (plan.outputAmounts.map fun amount => (UInt64.ofNat amount).toNat) =
      plan.outputAmounts := by
    refine (List.map_congr_left fun amount hmem => ?_).trans (List.map_id _)
    exact UInt64.toNat_ofNat_of_lt' (hsmall amount hmem)
  dsimp only [SplitPlan.persisted]
  rw [h.source_eq, readColumn_toInt64 hamount,
    readColumn_toInt64 (lt_of_le_of_lt h.fee_le hamount),
    readColumn_toInt64 (lt_of_le_of_lt h.length_le hamount)]
  refine ⟨h.reconstructed, ?_, ?_, ?_⟩
  · simp only [verifySplitTx, buildUnsignedSplitTx, bind_eq_ok, require_eq_ok, exists_unit]
    refine ⟨⟨rfl, ?_⟩, require_eq_ok.mpr (List.length_map _), verifySplitOutputs_map 0 hsmall, ?_⟩
    · rw [h.source_eq]
      exact UInt32.toNat_ofNat_of_lt' hvout
    · have hconserved := h.conserved
      have htotal : wrappingSum plan.outputAmounts = plan.outputAmounts.sum :=
        wrappingSum_of_lt (by omega)
      have hspent : [plan.outputAmounts.sum, plan.fee].sum = source.amount := by
        simpa using hconserved
      rw [h.source_eq, htotal, wrappingSum_of_lt (hspent ▸ hamount), hspent]
  · intro vout value
    rw [h.matches_iff, buildUnsignedSplitTx, List.getElem?_map]
    constructor
    · intro hget
      exact ⟨_, by rw [hget]; rfl, UInt64.ofNat_toNat⟩
    · rintro ⟨out, hout, rfl⟩
      obtain ⟨amount, hget, rfl⟩ := Option.map_eq_some_iff.mp hout
      rw [hget, UInt64.toNat_ofNat_of_lt' (hsmall amount (List.mem_of_getElem? hget))]
  · rw [buildUnsignedSplitTx, List.map_map]
    have hsum := congrArg List.sum hvalues
    exact (congrArg (· + plan.fee) hsum).trans h.conserved

/-- The hash of the redeem script of `sampleVault`. -/
def sampleHash160 (_ : List UInt8) : Vector UInt8 20 :=
  #v[0x15, 0xfc, 0x07, 0x54, 0xe7, 0x3e, 0xb8, 0x5d, 0x1c, 0xbc, 0xe0, 0x87, 0x86, 0xfa, 0xdb,
    0x73, 0x20, 0xec, 0xb8, 0xdc]

/-- A source of 4,500 GLC, split at 1,200 GLC into four chunks. -/
def samplePlan : SplitPlan where
  source := sampleUtxo 3 450000000000
  vaultScriptPubkey := sampleVault.scriptPubkey sampleHash160
  outputAmounts := [112499999889, 112499999889, 112499999889, 112499999888]
  fee := 445

theorem split_agrees_sample :
    matchesExpectedSplitOutput 450000000000 445 4 3 112499999888 = true ∧
      verifySplitTx (buildUnsignedSplitTx samplePlan) samplePlan = .ok () := by
  have h := split_agrees sampleHash160 (sampleUtxo 3 450000000000) sampleVault 120000000000 1000
    (by decide) (by decide) samplePlan (by decide +kernel)
  exact ⟨(h.2.2.1 3 112499999888).mpr ⟨_, rfl, by decide +kernel⟩, h.2.1⟩

end Goldcoin
