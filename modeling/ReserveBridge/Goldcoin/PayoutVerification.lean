-- SUMMARY: The check of a payout transaction before it is signed: what it accepts is the planned transaction, and it accepts the transaction of every plan that coin selection produces.
import ReserveBridge.Goldcoin.Fees
import Mathlib.Data.Nat.ModEq

/-!
# Verification of payouts

`verify_payout_tx` of `service/src/goldcoin/payout.rs`, and the plans of refunds
(`service/src/goldcoin/refund.rs`) and of withdrawals by the operator
(`service/src/bin/glc-rebalance-withdraw.rs`), which go through the same check.
-/

namespace Goldcoin
open Guard

/-! ## Plans of refunds and withdrawals -/

/-- What a refund knows of the deposit it returns. -/
structure DerivedSource where
  refundDestP2pkhHash : Vector UInt8 20
  observedAmountAtomic : ℕ

/-- `finalize`: a single change output, or all of it in the fee. -/
def finalize (result : SelectionResult) (amount dustThreshold : ℕ) : ℕ × ℕ :=
  let rawChange := result.changeOf amount
  if 0 < rawChange ∧ rawChange < dustThreshold then (0, result.fee + rawChange)
  else (rawChange, result.fee)

section Plans

variable (hash160 : List UInt8 → Vector UInt8 20)

def buildRefundPlan (derived : DerivedSource) (candidates : List VaultUtxo) (vault : MultisigVault)
    (policy : PayoutPolicy) : Except CoinSelectionError PayoutPlan := do
  let inputBytes := multisigInputBytes vault.threshold vault.redeemScript.length
  let selection ← select candidates derived.observedAmountAtomic policy.feeRatePerKb vault.threshold
    vault.redeemScript.length policy.maxInputs
  let change := finalizeFanout selection derived.observedAmountAtomic selection.selected.length
    inputBytes policy.feeRatePerKb policy.dustThreshold policy.changeFanoutTargetAtomic
    policy.changeFanoutMaxOutputs
  return {
    inputs := selection.selected
    inputContexts := selection.selected.map fun _ => ⟨vault, none⟩
    destP2pkhHash := derived.refundDestP2pkhHash
    payoutAtomic := derived.observedAmountAtomic
    changeOutputs := change.1
    vaultScriptPubkey := vault.scriptPubkey hash160
    fee := change.2 }

/-- The plan of `cmd_plan`. -/
def buildWithdrawPlan (candidates : List VaultUtxo) (vault : MultisigVault)
    (destP2pkhHash : Vector UInt8 20) (amount feeRatePerKb dustThreshold maxInputs : ℕ) :
    Except CoinSelectionError PayoutPlan := do
  let selection ← select candidates amount feeRatePerKb vault.threshold vault.redeemScript.length
    maxInputs
  let (change, fee) := finalize selection amount dustThreshold
  return {
    inputs := selection.selected
    inputContexts := List.replicate selection.selected.length ⟨vault, none⟩
    destP2pkhHash := destP2pkhHash
    payoutAtomic := amount
    changeOutputs := if 0 < change then [change] else []
    vaultScriptPubkey := vault.scriptPubkey hash160
    fee := fee }

end Plans

/-! ## The check -/

inductive PayoutVerifyError
  | inputCountMismatch (expected actual : ℕ)
  | inputMismatch (index : ℕ)
  | outputCountMismatch (expected actual : ℕ)
  | missingDestinationOutput
  | ambiguousDestinationOutput
  | changeOutputScriptMismatch (index : ℕ)
  | changeOutputAmountMismatch (index expected actual : ℕ)
  | valueNotConserved (inputs payout change fee : ℕ)
  deriving DecidableEq, Repr

def verifyInputs (inputs : List TxIn) (planned : List VaultUtxo) : Except PayoutVerifyError Unit :=
  checkZip (fun i (input : TxIn) u =>
    require (input.prevTxid = u.txid ∧ input.prevVout.toNat = u.vout) (.inputMismatch i)) 0 inputs
    planned

/-- The match over the outputs that pay the recipient. -/
def verifyDestination (outputs : List TxOut) (plan : PayoutPlan) : Except PayoutVerifyError Unit :=
  match outputs.filter fun o => o.scriptPubkey = p2pkhScript plan.destP2pkhHash with
  | [] => .error .missingDestinationOutput
  | [out] => require (out.valueAtomic.toNat = plan.payoutAtomic) .missingDestinationOutput
  | _ => .error .ambiguousDestinationOutput

def verifyChange (vaultScriptPubkey : List UInt8) (outputs : List TxOut) (amounts : List ℕ) :
    Except PayoutVerifyError Unit :=
  checkZip (fun i (out : TxOut) expected => do
    require (out.scriptPubkey = vaultScriptPubkey) (.changeOutputScriptMismatch i)
    require (out.valueAtomic.toNat = expected)
      (.changeOutputAmountMismatch i expected out.valueAtomic.toNat)) 0 outputs amounts

def verifyPayoutTx (tx : Transaction) (plan : PayoutPlan) : Except PayoutVerifyError Unit := do
  require (tx.inputs.length = plan.inputs.length)
    (.inputCountMismatch plan.inputs.length tx.inputs.length)
  verifyInputs tx.inputs plan.inputs
  let expectedOutputCount := 1 + plan.changeOutputs.length
  require (tx.outputs.length = expectedOutputCount)
    (.outputCountMismatch expectedOutputCount tx.outputs.length)
  verifyDestination tx.outputs plan
  verifyChange plan.vaultScriptPubkey tx.outputs.tail plan.changeOutputs
  let totalIn := wrappingSum (plan.inputs.map VaultUtxo.amount)
  let totalChange := wrappingSum plan.changeOutputs
  require (totalIn = wrappingSum [plan.payoutAtomic, totalChange, plan.fee])
    (.valueNotConserved totalIn plan.payoutAtomic totalChange plan.fee)

/-! ## What is accepted -/

/-- The output an input spends. -/
def TxIn.prevout (i : TxIn) : Bytes.Bytes32 × UInt32 := (i.prevTxid, i.prevVout)

/-- A plan whose only change is a second payment of the amount to the recipient. -/
def PayoutPlan.PaysTwice (plan : PayoutPlan) : Prop :=
  plan.vaultScriptPubkey = p2pkhScript plan.destP2pkhHash ∧ plan.changeOutputs = [plan.payoutAtomic]

/-- The value of the inputs goes to the recipient, into the change and into the fee. -/
def PayoutPlan.Conserves (plan : PayoutPlan) : Prop :=
  total plan.inputs = plan.payoutAtomic + plan.changeOutputs.sum + plan.fee

/-- What the check compares: the sums wrap. -/
def PayoutPlan.Balances (plan : PayoutPlan) : Prop :=
  total plan.inputs ≡ plan.payoutAtomic + plan.changeOutputs.sum + plan.fee [MOD 2 ^ 64]

/-- The widths of the source: `u32` indices, and a value of the inputs that fits
in 64 bits. -/
structure PayoutPlan.Representable (plan : PayoutPlan) : Prop where
  vout : ∀ u ∈ plan.inputs, u.vout < 2 ^ 32
  total : total plan.inputs < 2 ^ 64

section Accepted

variable {tx : Transaction} {plan : PayoutPlan}

/-- The sum of the change wraps once more within that of the outputs. -/
theorem wrappingSum_spent {payout fee : ℕ} {change : List ℕ} :
    wrappingSum [payout, wrappingSum change, fee] = (payout + change.sum + fee) % 2 ^ 64 := by
  simp only [wrappingSum, List.sum_cons, List.sum_nil]
  omega

theorem verifyInputs_eq_ok {inputs : List TxIn} {planned : List VaultUtxo}
    (hlength : inputs.length = planned.length) : verifyInputs inputs planned = .ok () ↔
      List.Forall₂ (fun i u => i.prevTxid = u.txid ∧ i.prevVout.toNat = u.vout) inputs planned := by
  unfold verifyInputs
  exact checkZip_eq_ok (fun _ _ _ => by rw [require_eq_ok]) hlength

theorem verifyChange_eq_ok {script : List UInt8} {outputs : List TxOut} {amounts : List ℕ}
    (hlength : outputs.length = amounts.length) : verifyChange script outputs amounts = .ok () ↔
      List.Forall₂ (fun o amount => o.scriptPubkey = script ∧ o.valueAtomic.toNat = amount) outputs
        amounts := by
  unfold verifyChange
  exact checkZip_eq_ok (fun _ _ _ => by simp only [bind_eq_ok, require_eq_ok, exists_unit]) hlength

theorem verifyDestination_eq_ok {outputs : List TxOut} :
    verifyDestination outputs plan = .ok () ↔
      ∃ out, outputs.filter (fun o => o.scriptPubkey = p2pkhScript plan.destP2pkhHash) = [out] ∧
        out.valueAtomic.toNat = plan.payoutAtomic := by
  unfold verifyDestination
  generalize outputs.filter (fun o => o.scriptPubkey = p2pkhScript plan.destP2pkhHash) = matched
  cases matched with
  | nil => simp
  | cons out others =>
    cases others with
    | nil => simp [require_eq_ok]
    | cons other others => simp

/-- What an accepted transaction was compared with. -/
theorem verifyPayoutTx_eq_ok : verifyPayoutTx tx plan = .ok () ↔
    tx.inputs.length = plan.inputs.length ∧ verifyInputs tx.inputs plan.inputs = .ok () ∧
      tx.outputs.length = 1 + plan.changeOutputs.length ∧
      verifyDestination tx.outputs plan = .ok () ∧
      verifyChange plan.vaultScriptPubkey tx.outputs.tail plan.changeOutputs = .ok () ∧
      plan.Balances := by
  simp only [verifyPayoutTx, bind_eq_ok, require_eq_ok, exists_unit, wrappingSum_spent]
  exact Iff.rfl

/-- The inputs spend the planned outputs. -/
theorem map_prevout (h : List.Forall₂ (fun i u => i.prevTxid = u.txid ∧ i.prevVout.toNat = u.vout)
      tx.inputs plan.inputs) :
    tx.inputs.map TxIn.prevout = (buildUnsignedTx plan).inputs.map TxIn.prevout := by
  rw [buildUnsignedTx, List.map_map, ← List.forall₂_eq_eq_eq, List.forall₂_map_left_iff,
    List.forall₂_map_right_iff]
  apply h.imp
  rintro i u ⟨htxid, hvout⟩
  rw [TxIn.prevout, Function.comp_apply, TxIn.prevout, TxIn.unsigned, ← htxid, ← hvout,
    UInt32.ofNat_toNat]

/-- The outputs after the first are the planned change. -/
theorem eq_map_change {script : List UInt8} {outputs : List TxOut} {amounts : List ℕ}
    (h : List.Forall₂ (fun o amount => o.scriptPubkey = script ∧ o.valueAtomic.toNat = amount) outputs
      amounts) : outputs = amounts.map fun change => ⟨UInt64.ofNat change, script⟩ := by
  rw [← List.forall₂_eq_eq_eq, List.forall₂_map_right_iff]
  apply h.imp
  rintro ⟨value, scriptPubkey⟩ amount ⟨rfl, rfl⟩
  rw [UInt64.ofNat_toNat]

/-- The one output that pays the recipient is the first, or the only other one. -/
theorem head_of_verifyDestination {out : TxOut} {outputs : List TxOut} (htwice : ¬ plan.PaysTwice)
    (hdest : verifyDestination (out :: outputs) plan = .ok ())
    (hchange : List.Forall₂ (fun o amount => o.scriptPubkey = plan.vaultScriptPubkey ∧
      o.valueAtomic.toNat = amount) outputs plan.changeOutputs) :
    out.scriptPubkey = p2pkhScript plan.destP2pkhHash ∧
      out.valueAtomic.toNat = plan.payoutAtomic := by
  obtain ⟨recipient, hfilter, hvalue⟩ := verifyDestination_eq_ok.mp hdest
  by_cases hout : out.scriptPubkey = p2pkhScript plan.destP2pkhHash
  · rw [List.filter_cons, if_pos (decide_eq_true hout)] at hfilter
    obtain ⟨rfl, -⟩ := List.cons.inj hfilter
    exact ⟨hout, hvalue⟩
  · -- the recipient's output is among the change, so the change has the recipient's script
    rw [List.filter_cons, if_neg (by simpa using hout)] at hfilter
    have hscripts : ∀ o ∈ outputs, o.scriptPubkey = plan.vaultScriptPubkey := by
      intro o ho
      rw [eq_map_change hchange] at ho
      obtain ⟨_, -, rfl⟩ := List.mem_map.mp ho
      rfl
    have hmem := List.mem_filter.mp (hfilter ▸ List.mem_singleton_self recipient)
    have hsame : plan.vaultScriptPubkey = p2pkhScript plan.destP2pkhHash :=
      (hscripts recipient hmem.1).symm.trans (of_decide_eq_true hmem.2)
    have hall : outputs = [recipient] := by
      rw [← hfilter, List.filter_eq_self.mpr]
      intro o ho
      exact decide_eq_true ((hscripts o ho).trans hsame)
    rw [hall] at hchange
    obtain ⟨amount, rest, ⟨-, hamount⟩, hrest, hcons⟩ := List.forall₂_cons_left_iff.mp hchange
    rw [List.forall₂_nil_left_iff] at hrest
    refine absurd ⟨hsame, ?_⟩ htwice
    rw [hcons, hrest, ← hamount, hvalue]

end Accepted

/-! ## The plans of coin selection -/

/-- The plans that coin selection produces: of a payout, of a refund, and of a
withdrawal by the operator. -/
inductive CoinSelected (hash160 : List UInt8 → Vector UInt8 20) (plan : PayoutPlan) : Prop
  | payout (tweak : ℤ → Pubkey → Option Pubkey) (find : String → Option ℤ) (policy : PayoutPolicy)
    (vault : MultisigVault) (destP2pkhHash : Vector UInt8 20) (payoutAtomic : ℕ)
    (confirmed : List VaultUtxo) (zeroConf : List ZeroConfChangeCandidate)
    (h : rederivePlan hash160 tweak find policy vault destP2pkhHash payoutAtomic confirmed zeroConf =
      .ok plan)
  | refund (derived : DerivedSource) (candidates : List VaultUtxo) (vault : MultisigVault)
    (policy : PayoutPolicy) (h : buildRefundPlan hash160 derived candidates vault policy = .ok plan)
  | withdrawal (candidates : List VaultUtxo) (vault : MultisigVault) (destP2pkhHash : Vector UInt8 20)
    (amount feeRatePerKb dustThreshold maxInputs : ℕ)
    (h : buildWithdrawPlan hash160 candidates vault destP2pkhHash amount feeRatePerKb dustThreshold
      maxInputs = .ok plan)

section Selected

variable {candidates : List VaultUtxo} {amount feeRatePerKb inputBytes maxInputs : ℕ}
  {r : SelectionResult}

/-- What the fan-out makes of a selection is conserved. -/
theorem Selected.conserves_fanout (dustThreshold target maxOutputs : ℕ)
    (h : Selected candidates amount feeRatePerKb inputBytes maxInputs r) :
    total r.selected = amount +
      (finalizeFanout r amount r.selected.length inputBytes feeRatePerKb dustThreshold target
        maxOutputs).1.sum +
      (finalizeFanout r amount r.selected.length inputBytes feeRatePerKb dustThreshold target
        maxOutputs).2 :=
  h.total_eq ▸ (finalizeFanout_conserves h.amount_le).symm

/-- A selection covers the fee it names. -/
theorem Selected.covers (h : Selected candidates amount feeRatePerKb inputBytes maxInputs r) :
    amount + r.fee ≤ r.totalSelected := by
  cases h with
  | exact u mem hamount result =>
    subst result
    exact hamount.ge
  | change covers => exact covers.covers

theorem Selected.conserves_finalize (dustThreshold : ℕ)
    (h : Selected candidates amount feeRatePerKb inputBytes maxInputs r) :
    total r.selected = amount + (finalize r amount dustThreshold).1 +
      (finalize r amount dustThreshold).2 := by
  have hcovers := h.covers
  rw [← h.total_eq]
  unfold finalize SelectionResult.changeOf
  dsimp only
  split_ifs with hdust
  · dsimp only
    omega
  · dsimp only
    omega

end Selected

namespace CoinSelected

variable {hash160 : List UInt8 → Vector UInt8 20} {plan : PayoutPlan}

/-- The change of a plan goes to a vault. -/
theorem script (h : CoinSelected hash160 plan) :
    ∃ vault : MultisigVault, plan.vaultScriptPubkey = vault.scriptPubkey hash160 := by
  cases h with
  | payout tweak find policy vault destP2pkhHash payoutAtomic confirmed zeroConf h =>
    simp only [rederivePlan, bind_eq_ok, pure_eq_ok] at h
    obtain ⟨_, -, _, -, rfl⟩ := h
    exact ⟨vault, rfl⟩
  | refund derived candidates vault policy h =>
    simp only [buildRefundPlan, bind_eq_ok, pure_eq_ok] at h
    obtain ⟨_, -, rfl⟩ := h
    exact ⟨vault, rfl⟩
  | withdrawal candidates vault destP2pkhHash amount feeRatePerKb dustThreshold maxInputs h =>
    simp only [buildWithdrawPlan, bind_eq_ok, pure_eq_ok] at h
    obtain ⟨_, -, rfl⟩ := h
    exact ⟨vault, rfl⟩

theorem conserves (h : CoinSelected hash160 plan) : plan.Conserves := by
  cases h with
  | payout tweak find policy vault destP2pkhHash payoutAtomic confirmed zeroConf h =>
    simp only [rederivePlan, bind_eq_ok, mapError_eq_ok, pure_eq_ok] at h
    obtain ⟨selection, hselection, contexts, -, rfl⟩ := h
    obtain ⟨pool, hpool⟩ := selectPayout_eq_ok hselection
    exact (select_eq_ok_max hpool).conserves_fanout _ _ _
  | refund derived candidates vault policy h =>
    simp only [buildRefundPlan, bind_eq_ok, pure_eq_ok] at h
    obtain ⟨selection, hselection, rfl⟩ := h
    exact (select_eq_ok_max hselection).conserves_fanout _ _ _
  | withdrawal candidates vault destP2pkhHash amount feeRatePerKb dustThreshold maxInputs h =>
    simp only [buildWithdrawPlan, bind_eq_ok, pure_eq_ok] at h
    obtain ⟨selection, hselection, rfl⟩ := h
    have hconserved := (select_eq_ok_max hselection).conserves_finalize dustThreshold
    unfold PayoutPlan.Conserves
    dsimp only
    split_ifs with hchange
    · rw [List.sum_singleton]
      exact hconserved
    · rw [List.sum_nil]
      omega

/-- The script of a vault is not one of a recipient. -/
theorem ne_p2pkhScript (h : CoinSelected hash160 plan) :
    plan.vaultScriptPubkey ≠ p2pkhScript plan.destP2pkhHash := by
  obtain ⟨vault, hvault⟩ := h.script
  intro heq
  have hlength := congrArg List.length (hvault.symm.trans heq)
  rw [MultisigVault.length_scriptPubkey, length_p2pkhScript] at hlength
  exact absurd hlength (by decide)

end CoinSelected

/-- The transaction of a conserved plan is accepted, where the vault and the
recipient have different scripts. -/
theorem verifyPayoutTx_build {plan : PayoutPlan} (hwidths : plan.Representable)
    (hconserves : plan.Conserves) (hscript : plan.vaultScriptPubkey ≠ p2pkhScript plan.destP2pkhHash) :
    verifyPayoutTx (buildUnsignedTx plan) plan = .ok () := by
  have hspent : plan.payoutAtomic + plan.changeOutputs.sum + plan.fee < 2 ^ 64 :=
    hconserves ▸ hwidths.total
  have hpayout : (UInt64.ofNat plan.payoutAtomic).toNat = plan.payoutAtomic :=
    UInt64.toNat_ofNat_of_lt' (by rw [UInt64.size]; omega)
  have hchange : List.Forall₂
      (fun (o : TxOut) amount => o.scriptPubkey = plan.vaultScriptPubkey ∧ o.valueAtomic.toNat = amount)
      (buildUnsignedTx plan).outputs.tail plan.changeOutputs := by
    rw [buildUnsignedTx, List.tail_cons, List.forall₂_map_left_iff, List.forall₂_same]
    intro amount hamount
    have hle := List.single_le_sum (fun _ _ => Nat.zero_le _) amount hamount
    exact ⟨rfl, UInt64.toNat_ofNat_of_lt' (by rw [UInt64.size]; omega)⟩
  have hinputs : (buildUnsignedTx plan).inputs.length = plan.inputs.length := List.length_map _
  have htail : (buildUnsignedTx plan).outputs.tail.length = plan.changeOutputs.length :=
    List.length_map _
  rw [verifyPayoutTx_eq_ok]
  refine ⟨hinputs, (verifyInputs_eq_ok hinputs).mpr ?_, ?_, verifyDestination_eq_ok.mpr ?_,
    (verifyChange_eq_ok htail).mpr hchange, congrArg (· % 2 ^ 64) hconserves⟩
  · rw [buildUnsignedTx, List.forall₂_map_left_iff, List.forall₂_same]
    intro u hu
    exact ⟨rfl, UInt32.toNat_ofNat_of_lt' (hwidths.vout u hu)⟩
  · rw [buildUnsignedTx, List.length_cons, List.length_map, Nat.add_comm]
  · refine ⟨⟨UInt64.ofNat plan.payoutAtomic, p2pkhScript plan.destP2pkhHash⟩, ?_, hpayout⟩
    rw [buildUnsignedTx, List.filter_cons, if_pos (decide_eq_true rfl), List.filter_eq_nil_iff.mpr]
    intro o ho
    obtain ⟨_, -, rfl⟩ := List.mem_map.mp ho
    simpa using hscript

/-- `samplePayout` with a script in its input. -/
def signedPayout : Transaction := (buildUnsignedTx samplePayout).withScript 0 [0x51]

/-- A plan with the recipient's script in place of a vault's: its change is a
second payment of the amount. -/
def payingTwice : PayoutPlan :=
  { samplePayout with
    payoutAtomic := 4999811
    changeOutputs := [4999811]
    vaultScriptPubkey := p2pkhScript samplePayout.destP2pkhHash
    fee := 378 }

/-- The transaction whose first output pays something else. -/
def divertingTx : Transaction :=
  { buildUnsignedTx payingTwice with
    outputs := [⟨700, [0x6a]⟩, ⟨4999811, p2pkhScript samplePayout.destP2pkhHash⟩] }

/-- A plan that pays out more than it spends: what it pays is 2^64 above what it
spends. -/
def wrappingPayout : PayoutPlan :=
  { samplePayout with
    inputs := [{ sampleFunding with amount := 10 }]
    payoutAtomic := 2 ^ 64 - 5
    changeOutputs := [10]
    fee := 5 }

end Goldcoin
