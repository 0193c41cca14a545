-- SUMMARY: The fee of a payout or a split is not undersized: no signed transaction is longer than the size its fee was computed for.
import ReserveBridge.Goldcoin.Payout
import ReserveBridge.Goldcoin.Split
import Mathlib.Algebra.Order.BigOperators.Group.List
import Mathlib.Algebra.Group.Action.Defs

/-!
# Fees and sizes

A fee is computed before anything is signed, for a size that is estimated from
the number of inputs and outputs. The bound goes part by part: the script of an
input, the input, the outputs, the transaction.
-/

namespace Goldcoin
open Bytes Guard

/-! ## Compact sizes and lists -/

theorem length_writeVarint_of_lt {n : ℕ} (h : n < 0xfd) : (writeVarint n).length = 1 := by
  rw [writeVarint, if_pos h, List.length_singleton]

theorem length_writeVarint_of_le {n : ℕ} (h : n ≤ 0xffff) :
    (writeVarint n).length = if n < 0xfd then 1 else 3 := by
  unfold writeVarint
  split_ifs
  · rfl
  · rw [List.length_cons, length_leBytes]

theorem length_writeVarint_le (n : ℕ) : (writeVarint n).length ≤ 9 := by
  unfold writeVarint
  split_ifs <;> simp only [List.length_cons, List.length_nil, length_leBytes] <;> omega

/-- Every further element pays for two bytes of the compact size. -/
theorem length_writeVarint_succ_le (n : ℕ) : (writeVarint (n + 1)).length ≤ 1 + 2 * n := by
  by_cases h : n + 1 < 0xfd
  · rw [length_writeVarint_of_lt h]
    omega
  · have hwide := length_writeVarint_le (n + 1)
    omega

theorem length_flatMap_le {α : Type} {f : α → List UInt8} {l : List α} {size : ℕ}
    (h : ∀ a ∈ l, (f a).length ≤ size) : (l.flatMap f).length ≤ l.length * size := by
  have hsum : (l.map fun a => (f a).length).sum ≤ (l.map fun a => (f a).length).length • size := by
    apply List.sum_le_card_nsmul
    intro n hn
    obtain ⟨a, ha, rfl⟩ := List.mem_map.mp hn
    exact h a ha
  rwa [List.length_map, smul_eq_mul, ← List.length_flatMap] at hsum

/-! ## The script of an input -/

/-- The bytes a push puts before its data. -/
def pushPrefix (length : ℕ) : ℕ := if length < 0x4c then 1 else if length ≤ 0xff then 2 else 3

theorem length_pushData (data : List UInt8) :
    (pushData data).length = pushPrefix data.length + data.length := by
  unfold pushData pushPrefix
  split_ifs <;> simp only [List.length_cons, List.length_append, length_leBytes] <;> omega

/-- The estimate of the script of an input. -/
def scriptSigLen (threshold redeemScriptLen : ℕ) : ℕ :=
  1 + threshold * (1 + maxSignatureBytes) + pushPrefix redeemScriptLen + redeemScriptLen

theorem multisigInputBytes_eq (threshold redeemScriptLen : ℕ) :
    multisigInputBytes threshold redeemScriptLen =
      36 + (if scriptSigLen threshold redeemScriptLen < 0xfd then 1 else 3) +
        scriptSigLen threshold redeemScriptLen + 4 := rfl

/-- The estimate has a compact size of at most three bytes. -/
theorem MultisigVault.scriptSigLen_le (v : MultisigVault) :
    scriptSigLen v.threshold v.redeemScript.length ≤ 0xffff := by
  have hpre : pushPrefix v.redeemScript.length ≤ 3 := by
    unfold pushPrefix
    split_ifs <;> omega
  obtain ⟨hkeys, -, hthreshold, -⟩ := v.bounds
  have hlength := v.length_redeemScript
  unfold scriptSigLen maxSignatureBytes
  omega

section Assembled

variable {E : Ecdsa} {vault : MultisigVault} {sighash : Bytes32} {partials : List PartialSignature}
  {script : List UInt8}

/-- A signature is pushed with one byte before it and its type after it. -/
theorem length_assemble_le (hder : ∀ sig, (E.serializeDer sig).length ≤ 72)
    (h : assemble E vault sighash partials = .ok script) :
    script.length ≤ scriptSigLen vault.threshold vault.redeemScript.length := by
  obtain ⟨hquorum, rfl⟩ := assemble_eq_ok.mp h
  have hsignatures : (((ordered E vault partials).map (slot E vault)).flatMap
      fun p => pushData (p.2 ++ [sighashAllByte])).length ≤
        ((ordered E vault partials).map (slot E vault)).length * (1 + maxSignatureBytes) := by
    apply length_flatMap_le
    intro placed hplaced
    obtain ⟨p, hp, rfl⟩ := List.mem_map.mp hplaced
    have hshort := length_slot_le hder (hquorum.valid p (ordered_perm.mem_iff.mp hp))
    rw [length_pushData, List.length_append, List.length_singleton, pushPrefix, if_pos (by omega)]
    unfold maxSignatureBytes
    omega
  rw [List.length_map, ordered_perm.length_eq, hquorum.count] at hsignatures
  rw [pushes, List.flatMap_append, List.flatMap_cons, List.flatMap_map, List.flatMap_singleton,
    List.length_append, List.length_append, length_pushData vault.redeemScript]
  have hdummy : (pushData []).length = 1 := rfl
  unfold scriptSigLen
  omega

end Assembled

/-! ## The transaction -/

theorem TxIn.length_serialize_le {i : TxIn} {size : ℕ} (h : i.scriptSig.length ≤ size)
    (hsize : size ≤ 0xffff) :
    i.serialize.length ≤ 36 + (if size < 0xfd then 1 else 3) + size + 4 := by
  have hvarint := length_writeVarint_of_le (h.trans hsize)
  simp only [TxIn.serialize, writeScript, List.length_append, List.length_reverse,
    Vector.length_toList, length_u32Bytes, hvarint]
  split_ifs <;> omega

theorem TxOut.length_serialize {o : TxOut} (h : o.scriptPubkey.length < 0xfd) :
    o.serialize.length = 9 + o.scriptPubkey.length := by
  simp only [TxOut.serialize, writeScript, List.length_append, length_u64Bytes,
    length_writeVarint_of_lt h]
  omega

/-- The outputs of a payout or a split: the first pays a script of 25 bytes at
most, the others pay a vault. -/
structure PayingOutputs (outputs : List TxOut) : Prop where
  nonempty : outputs ≠ []
  first : ∀ o ∈ outputs.head?, o.scriptPubkey.length ≤ 25
  others : ∀ o ∈ outputs.tail, o.scriptPubkey.length ≤ 23

/-- The outputs with their number fit into the estimate of each and a byte. -/
theorem PayingOutputs.length_le {outputs : List TxOut} (h : PayingOutputs outputs) :
    (writeVarint outputs.length).length + (outputs.flatMap TxOut.serialize).length ≤
      1 + outputs.length * p2pkhOutputBytes := by
  obtain ⟨hnonempty, hfirst, hothers⟩ := h
  cases outputs with
  | nil => exact absurd rfl hnonempty
  | cons o outputs =>
    have hfirst : o.scriptPubkey.length ≤ 25 := hfirst o rfl
    have hout := TxOut.length_serialize (o := o) (by omega)
    have hrest : (outputs.flatMap TxOut.serialize).length ≤ outputs.length * 32 := by
      apply length_flatMap_le
      intro out hmem
      have hscript : out.scriptPubkey.length ≤ 23 := hothers out hmem
      rw [TxOut.length_serialize (by omega)]
      omega
    have hvarint := length_writeVarint_succ_le outputs.length
    rw [List.length_cons, List.flatMap_cons, List.length_append, hout]
    unfold p2pkhOutputBytes
    omega

theorem Transaction.length_serialize_le {tx : Transaction} (v : MultisigVault)
    (hinputs : tx.inputs.length < 0xfd)
    (hscripts : ∀ i ∈ tx.inputs,
      i.scriptSig.length ≤ scriptSigLen v.threshold v.redeemScript.length)
    (houtputs : PayingOutputs tx.outputs) :
    tx.serialize.length ≤ sizeFor tx.inputs.length tx.outputs.length
      (multisigInputBytes v.threshold v.redeemScript.length) := by
  have hins : (tx.inputs.flatMap TxIn.serialize).length ≤
      tx.inputs.length * multisigInputBytes v.threshold v.redeemScript.length := by
    apply length_flatMap_le
    intro i hi
    rw [multisigInputBytes_eq]
    exact TxIn.length_serialize_le (hscripts i hi) v.scriptSigLen_le
  have houts := houtputs.length_le
  rw [serialize, sizeFor]
  simp only [List.length_append, length_u32Bytes, length_writeVarint_of_lt hinputs]
  unfold txOverheadBytes
  omega

/-! ## Completion -/

theorem Transaction.scriptSig_withScript {tx : Transaction} {inputIndex size : ℕ}
    {script : List UInt8} (htx : ∀ i ∈ tx.inputs, i.scriptSig.length ≤ size)
    (hscript : script.length ≤ size) :
    ∀ i ∈ (tx.withScript inputIndex script).inputs, i.scriptSig.length ≤ size := by
  intro i hi
  obtain ⟨k, hk, rfl⟩ := List.mem_iff_getElem.mp hi
  simp only [withScript, List.getElem_modify]
  split_ifs
  · exact hscript
  · exact htx _ (List.getElem_mem _)

/-- Completion writes scripts of the estimated length, into as many inputs, and
leaves the outputs alone. -/
theorem completeFrom_eq_ok {E : Ecdsa} {sha256 : List UInt8 → Bytes32} {v : MultisigVault}
    {signers : List (MultisigVault × List PartialSignature)} {inputIndex : ℕ} {tx signed : Transaction}
    (hder : ∀ sig, (E.serializeDer sig).length ≤ 72)
    (hsigners : ∀ s ∈ signers, s.1.threshold = v.threshold ∧
      s.1.redeemScript.length = v.redeemScript.length)
    (htx : ∀ i ∈ tx.inputs, i.scriptSig.length ≤ scriptSigLen v.threshold v.redeemScript.length)
    (h : completeFrom E sha256 inputIndex tx signers = .ok signed) :
    (∀ i ∈ signed.inputs, i.scriptSig.length ≤ scriptSigLen v.threshold v.redeemScript.length) ∧
      signed.inputs.length = tx.inputs.length ∧ signed.outputs = tx.outputs := by
  induction signers generalizing inputIndex tx with
  | nil =>
    obtain rfl := Except.ok.inj h
    exact ⟨htx, rfl, rfl⟩
  | cons signer signers ih =>
    rw [List.forall_mem_cons] at hsigners
    obtain ⟨⟨hthreshold, hredeem⟩, hsigners⟩ := hsigners
    simp only [completeFrom, bind_eq_ok] at h
    obtain ⟨script, hassembled, h⟩ := h
    have hscript := length_assemble_le hder hassembled
    rw [hthreshold, hredeem] at hscript
    obtain ⟨hscripts, hinputs, houtputs⟩ :=
      ih hsigners (Transaction.scriptSig_withScript htx hscript) h
    refine ⟨hscripts, hinputs.trans ?_, houtputs⟩
    rw [Transaction.withScript, List.length_modify]

/-- A completed transaction is not longer than the size of its fee. -/
theorem length_completed_le {E : Ecdsa} {sha256 : List UInt8 → Bytes32} {v : MultisigVault}
    {signers : List (MultisigVault × List PartialSignature)} {tx signed : Transaction}
    (hder : ∀ sig, (E.serializeDer sig).length ≤ 72)
    (hsigners : ∀ s ∈ signers, s.1.threshold = v.threshold ∧
      s.1.redeemScript.length = v.redeemScript.length)
    (hunsigned : ∀ i ∈ tx.inputs, i.scriptSig = []) (hinputs : tx.inputs.length < 0xfd)
    (houtputs : PayingOutputs tx.outputs)
    (h : completeFrom E sha256 0 tx signers = .ok signed) :
    signed.serialize.length ≤ sizeFor tx.inputs.length tx.outputs.length
      (multisigInputBytes v.threshold v.redeemScript.length) := by
  have hempty : ∀ i ∈ tx.inputs,
      i.scriptSig.length ≤ scriptSigLen v.threshold v.redeemScript.length := by
    intro i hi
    rw [hunsigned i hi]
    exact Nat.zero_le _
  obtain ⟨hscripts, hlength, hsame⟩ := completeFrom_eq_ok hder hsigners hempty h
  rw [← hlength, ← hsame]
  exact Transaction.length_serialize_le v (hlength ▸ hinputs) hscripts (hsame ▸ houtputs)

/-- A derived vault has the threshold and the number of keys of the root. -/
theorem deriveRequestVault_eq_ok {tweak : ℤ → Pubkey → Option Pubkey} {root derived : MultisigVault}
    {requestId : ℤ} (h : deriveRequestVault tweak root requestId = .ok derived) :
    derived.threshold = root.threshold ∧
      derived.redeemScript.length = root.redeemScript.length := by
  simp only [deriveRequestVault, bind_eq_ok, orFail_eq_ok] at h
  obtain ⟨pubkeys, hpubkeys, h⟩ := h
  split at h
  · obtain rfl := Except.ok.inj h
    refine ⟨rfl, ?_⟩
    rw [MultisigVault.length_redeemScript, MultisigVault.length_redeemScript,
      length_of_mapM_option hpubkeys]
  · cases h

theorem inputContext_eq_ok {hash160 : List UInt8 → Vector UInt8 20}
    {tweak : ℤ → Pubkey → Option Pubkey} {find : String → Option ℤ} {vault : MultisigVault}
    {u : VaultUtxo} {context : PayoutInputContext}
    (h : inputContext hash160 tweak find vault u = .ok context) :
    context.vault.threshold = vault.threshold ∧
      context.vault.redeemScript.length = vault.redeemScript.length := by
  unfold inputContext at h
  split_ifs at h
  · obtain rfl := Except.ok.inj h
    exact ⟨rfl, rfl⟩
  · simp only [bind_eq_ok, pure_eq_ok] at h
    obtain ⟨_, -, derived, hderived, rfl⟩ := h
    exact deriveRequestVault_eq_ok hderived

theorem MultisigVault.length_scriptPubkey {hash160 : List UInt8 → Vector UInt8 20}
    {v : MultisigVault} : (v.scriptPubkey hash160).length = 23 := by
  simp [scriptPubkey]

theorem length_p2pkhScript {hash : Vector UInt8 20} : (p2pkhScript hash).length = 25 := by
  simp [p2pkhScript]

/-! ## Rates -/

theorem le_mul_divCeil (a : ℕ) {b : ℕ} (h : 0 < b) : a ≤ b * divCeil a b := by
  have hlt := Nat.lt_mul_div_succ (a + b - 1) h
  rw [divCeil]
  rw [Nat.mul_add, Nat.mul_one] at hlt
  omega

theorem mul_divCeil_lt (a : ℕ) {b : ℕ} (h : 0 < b) : b * divCeil a b < a + b := by
  have hle := Nat.mul_div_le (a + b - 1) b
  rw [divCeil]
  omega

/-- A fee pays the rate: the length is within the size the fee is computed for,
and the fee covers the rate for the size exactly where their product does not
wrap. Where it wraps, the fee does not cover the length either, if this is more
than half of the size. -/
structure FeePays (feeRatePerKb size fee length : ℕ) : Prop where
  length_le : length ≤ size
  covers_size : feeRatePerKb * size ≤ 1000 * fee ↔ size * feeRatePerKb < 2 ^ 64
  covers : size * feeRatePerKb < 2 ^ 64 → feeRatePerKb * length ≤ 1000 * fee
  covers_only : size < 2 * length → size < 2 ^ 53 →
    feeRatePerKb * length ≤ 1000 * fee → size * feeRatePerKb < 2 ^ 64

section Fee

variable {numInputs numOutputs feeRatePerKb inputBytes length : ℕ}

theorem sizeFor_le {numOutputs' : ℕ} (h : numOutputs ≤ numOutputs') :
    sizeFor numInputs numOutputs inputBytes ≤ sizeFor numInputs numOutputs' inputBytes :=
  Nat.add_le_add_left (Nat.mul_le_mul_right _ h) _

/-- The fee is the product's remainder in thousands, rounded up. -/
theorem le_feeFor : sizeFor numInputs numOutputs inputBytes * feeRatePerKb % 2 ^ 64 ≤
    1000 * feeFor numInputs numOutputs feeRatePerKb inputBytes :=
  le_mul_divCeil _ (by decide : 0 < 1000)

theorem feeFor_lt : 1000 * feeFor numInputs numOutputs feeRatePerKb inputBytes <
    sizeFor numInputs numOutputs inputBytes * feeRatePerKb % 2 ^ 64 + 1000 :=
  mul_divCeil_lt _ (by decide : 0 < 1000)

/-- A fee covers the rate for its size. -/
theorem rate_mul_le_feeFor (h : length ≤ sizeFor numInputs numOutputs inputBytes)
    (hfee : sizeFor numInputs numOutputs inputBytes * feeRatePerKb < 2 ^ 64) :
    feeRatePerKb * length ≤ 1000 * feeFor numInputs numOutputs feeRatePerKb inputBytes := by
  calc feeRatePerKb * length
      ≤ feeRatePerKb * sizeFor numInputs numOutputs inputBytes := Nat.mul_le_mul_left _ h
    _ = sizeFor numInputs numOutputs inputBytes * feeRatePerKb % 2 ^ 64 := by
      rw [Nat.mul_comm, Nat.mod_eq_of_lt hfee]
    _ ≤ 1000 * feeFor numInputs numOutputs feeRatePerKb inputBytes := le_feeFor

theorem feePays (h : length ≤ sizeFor numInputs numOutputs inputBytes) :
    FeePays feeRatePerKb (sizeFor numInputs numOutputs inputBytes)
      (feeFor numInputs numOutputs feeRatePerKb inputBytes) length := by
  have hlt := @feeFor_lt numInputs numOutputs feeRatePerKb inputBytes
  have hcovers := @rate_mul_le_feeFor numInputs numOutputs feeRatePerKb inputBytes
  generalize feeFor numInputs numOutputs feeRatePerKb inputBytes = fee at *
  generalize sizeFor numInputs numOutputs inputBytes = size at *
  refine ⟨h, ⟨fun hle => ?_, hcovers le_rfl⟩, hcovers h, fun hhalf hsize hle => ?_⟩
  · -- a product that wraps loses at least `2 ^ 64`
    by_contra hwraps
    rw [Nat.mul_comm] at hle
    omega
  · by_contra hwraps
    have hrate : 2 ^ 11 < feeRatePerKb := by
      by_contra hsmall
      have hproduct : size * feeRatePerKb ≤ (2 ^ 53 - 1) * 2 ^ 11 :=
        Nat.mul_le_mul (Nat.le_sub_one_of_lt hsize) (Nat.le_of_not_lt hsmall)
      omega
    have htwice : feeRatePerKb * (size + 1) ≤ feeRatePerKb * (2 * length) :=
      Nat.mul_le_mul_left _ hhalf
    rw [Nat.mul_add, Nat.mul_one, Nat.mul_comm feeRatePerKb size, Nat.mul_left_comm] at htwice
    omega

end Fee

/-- What is selected adds up to the total and covers the fee for one output. -/
theorem Selected.total_eq {candidates : List VaultUtxo}
    {amount feeRatePerKb inputBytes maxInputs : ℕ} {r : SelectionResult}
    (h : Selected candidates amount feeRatePerKb inputBytes maxInputs r) :
    r.totalSelected = total r.selected := by
  cases h with
  | exact u mem amount result =>
    subst result
    rfl
  | change covers => exact covers.sum

/-! ## Plans -/

section Plans

variable {E : Ecdsa} {sha256 : List UInt8 → Bytes32} {hash160 : List UInt8 → Vector UInt8 20}
  {tweak : ℤ → Pubkey → Option Pubkey} {find : String → Option ℤ} {policy : PayoutPolicy}
  {vault : MultisigVault} {destP2pkhHash : Vector UInt8 20} {payoutAtomic : ℕ}
  {confirmed : List VaultUtxo} {zeroConf : List ZeroConfChangeCandidate} {plan : PayoutPlan}

/-- The change of a plan pays the vault, and its inputs are spent from the vault or
from one derived from it. -/
theorem rederivePlan_vaults (h : rederivePlan hash160 tweak find policy vault destP2pkhHash
    payoutAtomic confirmed zeroConf = .ok plan) :
    plan.vaultScriptPubkey = vault.scriptPubkey hash160 ∧
      ∀ context ∈ plan.inputContexts, context.vault.threshold = vault.threshold ∧
        context.vault.redeemScript.length = vault.redeemScript.length := by
  simp only [rederivePlan, bind_eq_ok, mapError_eq_ok, pure_eq_ok] at h
  obtain ⟨selection, -, contexts, hcontexts, rfl⟩ := h
  exact ⟨rfl, forall_mem_of_mapM (fun _ _ => inputContext_eq_ok) hcontexts⟩

/-- The fee of a plan is what its inputs leave. With change it is the one for its
outputs, and it is at least that where the fee for two outputs does not wrap. -/
theorem rederivePlan_fee (h : rederivePlan hash160 tweak find policy vault destP2pkhHash
    payoutAtomic confirmed zeroConf = .ok plan) :
    let inputBytes := multisigInputBytes vault.threshold vault.redeemScript.length
    let fee := feeFor plan.inputs.length (1 + plan.changeOutputs.length) policy.feeRatePerKb
      inputBytes
    plan.payoutAtomic + plan.changeOutputs.sum + plan.fee = total plan.inputs ∧
      (plan.changeOutputs ≠ [] → plan.fee = fee) ∧
      (sizeFor plan.inputs.length 2 inputBytes * policy.feeRatePerKb < 2 ^ 64 → fee ≤ plan.fee) := by
  simp only [rederivePlan, bind_eq_ok, mapError_eq_ok, pure_eq_ok] at h
  obtain ⟨selection, hselection, contexts, -, rfl⟩ := h
  obtain ⟨pool, hpool⟩ := selectPayout_eq_ok hselection
  have hselected := select_eq_ok_max hpool
  refine ⟨?_, finalizeFanout_fee, fun hfits => (fannedOut (hselected.covers_one hfits)).fee_le⟩
  exact (finalizeFanout_conserves hselected.amount_le).trans hselected.total_eq

/-- A signed payout is not longer than the size of its fee. -/
theorem length_payout_le {partials : List (List PartialSignature)} {tx : Transaction}
    (hder : ∀ sig, (E.serializeDer sig).length ≤ 72)
    (hscript : plan.vaultScriptPubkey = vault.scriptPubkey hash160)
    (hcontexts : ∀ context ∈ plan.inputContexts, context.vault.threshold = vault.threshold ∧
      context.vault.redeemScript.length = vault.redeemScript.length)
    (hinputs : plan.inputs.length < 253)
    (h : completeFrom E sha256 0 (buildUnsignedTx plan)
      ((plan.inputContexts.map PayoutInputContext.vault).zip partials) = .ok tx) :
    tx.serialize.length ≤ sizeFor plan.inputs.length (1 + plan.changeOutputs.length)
      (multisigInputBytes vault.threshold vault.redeemScript.length) := by
  have hsigners : ∀ s ∈ (plan.inputContexts.map PayoutInputContext.vault).zip partials,
      s.1.threshold = vault.threshold ∧ s.1.redeemScript.length = vault.redeemScript.length := by
    intro s hs
    obtain ⟨context, hcontext, heq⟩ := List.mem_map.mp (List.of_mem_zip hs).1
    rw [← heq]
    exact hcontexts context hcontext
  have hunsigned : ∀ i ∈ (buildUnsignedTx plan).inputs, i.scriptSig = [] := by
    intro i hi
    obtain ⟨u, -, rfl⟩ := List.mem_map.mp hi
    rfl
  have houtputs : PayingOutputs (buildUnsignedTx plan).outputs := by
    refine ⟨List.cons_ne_nil _ _, fun o ho => ?_, fun o ho => ?_⟩
    · obtain rfl := Option.some.inj ho
      exact length_p2pkhScript.le
    · obtain ⟨amount, -, rfl⟩ := List.mem_map.mp ho
      rw [hscript]
      exact MultisigVault.length_scriptPubkey.le
  have hlength := length_completed_le hder hsigners hunsigned
    (by rw [buildUnsignedTx, List.length_map]; exact hinputs) houtputs h
  rwa [buildUnsignedTx, List.length_map, List.length_cons, List.length_map,
    Nat.add_comm plan.changeOutputs.length] at hlength

/-- A signed split is not longer than the size of its fee. -/
theorem length_split_le {source : VaultUtxo} {feeRatePerKb : ℕ} {plan : SplitPlan}
    {partials : List PartialSignature} {tx : Transaction}
    (hder : ∀ sig, (E.serializeDer sig).length ≤ 72)
    (hplan : PlannedSplit hash160 source vault feeRatePerKb plan)
    (h : completeFrom E sha256 0 (buildUnsignedSplitTx plan) [(vault, partials)] = .ok tx) :
    tx.serialize.length ≤ sizeFor 1 plan.outputAmounts.length
      (multisigInputBytes vault.threshold vault.redeemScript.length) := by
  have hscripts : ∀ o ∈ (buildUnsignedSplitTx plan).outputs, o.scriptPubkey.length = 23 := by
    intro o ho
    obtain ⟨amount, -, rfl⟩ := List.mem_map.mp ho
    exact (congrArg List.length hplan.script).trans MultisigVault.length_scriptPubkey
  have hnonempty : (buildUnsignedSplitTx plan).outputs ≠ [] := by
    rw [buildUnsignedSplitTx, ← List.length_pos_iff, List.length_map]
    exact hplan.pos
  have hlength := length_completed_le hder
    (fun s hs => by obtain rfl := List.mem_singleton.mp hs; exact ⟨rfl, rfl⟩)
    (fun i hi => by obtain rfl := List.mem_singleton.mp hi; rfl)
    (show (buildUnsignedSplitTx plan).inputs.length < 0xfd from (by decide : 1 < 0xfd))
    ⟨hnonempty, fun o ho => (hscripts o (List.mem_of_mem_head? ho)).le.trans (by decide),
      fun o ho => (hscripts o (List.mem_of_mem_tail ho)).le⟩ h
  rwa [buildUnsignedSplitTx, List.length_singleton, List.length_map] at hlength

end Plans

/-- A signed payout is not longer than the size of its fee, and the fee is what
its inputs leave. With change it pays the rate exactly where the product of size
and rate does not wrap. Without change it is all that is left over, and pays the
rate where the product for two outputs does not wrap. A signed split has a fee
that pays the rate exactly where the product does not wrap. -/
theorem fees_cover_iff (E : Ecdsa) (hder : ∀ sig, (E.serializeDer sig).length ≤ 72)
    (sha256 : List UInt8 → Bytes32) (hash160 : List UInt8 → Vector UInt8 20)
    (vault : MultisigVault) :
    let inputBytes := multisigInputBytes vault.threshold vault.redeemScript.length
    (∀ (tweak : ℤ → Pubkey → Option Pubkey) (find : String → Option ℤ) (policy : PayoutPolicy)
      (destP2pkhHash : Vector UInt8 20) (payoutAtomic : ℕ) (confirmed : List VaultUtxo)
      (zeroConf : List ZeroConfChangeCandidate) (plan : PayoutPlan)
      (partials : List (List PartialSignature)) (tx : Transaction),
      rederivePlan hash160 tweak find policy vault destP2pkhHash payoutAtomic confirmed zeroConf =
        .ok plan →
      plan.inputs.length < 253 →
      completeFrom E sha256 0 (buildUnsignedTx plan)
        ((plan.inputContexts.map PayoutInputContext.vault).zip partials) = .ok tx →
        let numOutputs := 1 + plan.changeOutputs.length
        let size := sizeFor plan.inputs.length numOutputs inputBytes
        tx.serialize.length ≤ size ∧
        plan.payoutAtomic + plan.changeOutputs.sum + plan.fee = total plan.inputs ∧
        (plan.changeOutputs ≠ [] →
          plan.fee = feeFor plan.inputs.length numOutputs policy.feeRatePerKb inputBytes ∧
          FeePays policy.feeRatePerKb size plan.fee tx.serialize.length) ∧
        (plan.changeOutputs = [] →
          sizeFor plan.inputs.length 2 inputBytes * policy.feeRatePerKb < 2 ^ 64 →
          feeFor plan.inputs.length numOutputs policy.feeRatePerKb inputBytes ≤ plan.fee ∧
          policy.feeRatePerKb * tx.serialize.length ≤ 1000 * plan.fee)) ∧
    ∀ (source : VaultUtxo) (chunkTarget feeRatePerKb : ℕ) (plan : SplitPlan)
      (partials : List PartialSignature) (tx : Transaction),
      planSplit hash160 source vault chunkTarget feeRatePerKb = .ok plan →
      completeFrom E sha256 0 (buildUnsignedSplitTx plan) [(vault, partials)] = .ok tx →
        let numOutputs := plan.outputAmounts.length
        let size := sizeFor 1 numOutputs inputBytes
        tx.serialize.length ≤ size ∧
        plan.fee = feeFor 1 numOutputs feeRatePerKb inputBytes ∧
        plan.outputAmounts.sum + plan.fee = source.amount ∧
        FeePays feeRatePerKb size plan.fee tx.serialize.length := by
  constructor
  · intro tweak find policy destP2pkhHash payoutAtomic confirmed zeroConf plan partials tx hplan
      hinputs hcomplete
    obtain ⟨hscript, hcontexts⟩ := rederivePlan_vaults hplan
    have hlength := length_payout_le hder hscript hcontexts hinputs hcomplete
    obtain ⟨hconserved, hfee, hleft⟩ := rederivePlan_fee hplan
    refine ⟨hlength, hconserved, fun hne => ⟨hfee hne, ?_⟩, fun hnil hfits => ?_⟩
    · rw [hfee hne]
      exact feePays hlength
    · have hle := hleft hfits
      have htwo : 1 + plan.changeOutputs.length ≤ 2 := by
        rw [hnil, List.length_nil]
        decide
      have hfits' := lt_of_le_of_lt (Nat.mul_le_mul_right _ (sizeFor_le htwo)) hfits
      exact ⟨hle, (rate_mul_le_feeFor hlength hfits').trans (Nat.mul_le_mul_left _ hle)⟩
  · intro source chunkTarget feeRatePerKb plan partials tx hplan hcomplete
    have h := planSplit_eq_ok hplan
    have hlength := length_split_le hder h hcomplete
    refine ⟨hlength, h.fee, h.conserved, ?_⟩
    rw [h.fee]
    exact feePays hlength

/-- An output of the root vault. -/
def sampleFunding : VaultUtxo where
  txid := Vector.replicate 32 0
  vout := 0
  amount := 10000000
  scriptPubkeyHex := hexEncode (sampleVault.scriptPubkey sampleHash160)

def samplePolicy : PayoutPolicy where
  feeRatePerKb := 1000
  dustThreshold := 1000
  maxInputs := 25
  changeFanoutTargetAtomic := 100000000
  zeroConfChangeMaxDepth := 1
  zeroConfChangeMode := .depthLimited
  zeroConfChangeRecursiveChainLimit := 20
  changeFanoutMaxOutputs := 4

def samplePayout : PayoutPlan where
  inputs := [sampleFunding]
  inputContexts := [⟨sampleVault, none⟩]
  destP2pkhHash := Vector.replicate 20 0x22
  payoutAtomic := 4000000
  changeOutputs := [5999623]
  vaultScriptPubkey := sampleVault.scriptPubkey sampleHash160
  fee := 377

/-- The two hashes of the preimage of `samplePayout`. -/
def sampleSha256 (bytes : List UInt8) : Bytes32 :=
  if bytes.length = 32 then
    beWord 0xe769927f248b08ad4f507091013135a4b1d449d244c07c97620302da46c7f5ba
  else beWord 0x8fc714511fddf3c5a2372d0734cf2ef097029b11c9f3955fc7d2d2e7a52aed5b

/-- The signatures of `samplePayout` with the first two keys. -/
def samplePayoutSignatures : List (ℕ × ℕ) :=
  [(0x774ae7f858a9411e5ef4246b70c65aac5649980be5c17891bbec17895da008cb,
      0x1fe1dc967fbeef6f9b7a992e38e7f5d8d23143143268e7bdeb72d3da834f45af),
    (0xf28773c2d975288bc7d1d205c3748651b075fbc6610e58cddeeddf8f19405aa8,
      0x3f0a6cc48cf6f9183d9e74917f60710d8fcbc36328fcd03f074ff5554313736c)]

def samplePayoutEcdsa : Ecdsa :=
  knownEcdsa (sampleSha256 (List.replicate 32 0))
    (sampleVault.signerPubkeys.zip samplePayoutSignatures)

def sampleSelection : SelectionResult := ⟨[sampleFunding], 10000000, 377⟩

theorem sample_rederived : rederivePlan sampleHash160 (fun _ _ => none) (fun _ => none) samplePolicy
    sampleVault (Vector.replicate 20 0x22) 4000000 [sampleFunding] [] = .ok samplePayout := by
  have hselect : selectPayout samplePolicy sampleVault 4000000 [sampleFunding] [] =
      .ok sampleSelection := by decide +kernel
  have hcontext : inputContext sampleHash160 (fun _ _ => none) (fun _ => none) sampleVault
      sampleFunding = .ok ⟨sampleVault, none⟩ := if_pos (decide_eq_true rfl)
  have hchange : finalizeFanout sampleSelection 4000000 sampleSelection.selected.length
      (multisigInputBytes sampleVault.threshold sampleVault.redeemScript.length)
      samplePolicy.feeRatePerKb samplePolicy.dustThreshold samplePolicy.changeFanoutTargetAtomic
      samplePolicy.changeFanoutMaxOutputs = ([5999623], 377) := by decide +kernel
  simp only [rederivePlan, bind_eq_ok, mapError_eq_ok, pure_eq_ok]
  refine ⟨_, hselect, [⟨sampleVault, none⟩], ?_, ?_⟩
  · rw [sampleSelection, List.mapM_cons, hcontext]
    rfl
  · rw [hchange]
    rfl

theorem fees_cover_iff_sample : ∃ tx,
    completeFrom samplePayoutEcdsa sampleSha256 0 (buildUnsignedTx samplePayout)
      [(sampleVault, [samplePartial 0 (samplePayoutSignatures[0]),
        samplePartial 1 (samplePayoutSignatures[1])])] = .ok tx ∧
      1000 * tx.serialize.length ≤ 1000 * 377 := by
  have hcomplete : (completeFrom samplePayoutEcdsa sampleSha256 0 (buildUnsignedTx samplePayout)
      [(sampleVault, [samplePartial 0 (samplePayoutSignatures[0]),
        samplePartial 1 (samplePayoutSignatures[1])])]).toOption.isSome = true := by decide +kernel
  obtain ⟨tx, htx⟩ := Option.isSome_iff_exists.mp hcomplete
  have htx := toOption_eq_some.mp htx
  have h := (fees_cover_iff samplePayoutEcdsa (fun sig => length_derSignature_le sig.1 sig.2)
    sampleSha256 sampleHash160 sampleVault).1 (fun _ _ => none) (fun _ => none) samplePolicy _ _ _ _ _
    [[samplePartial 0 (samplePayoutSignatures[0]), samplePartial 1 (samplePayoutSignatures[1])]] tx
    sample_rederived (by decide) htx
  exact ⟨tx, htx, (h.2.2.1 (List.cons_ne_nil _ _)).2.covers (by decide)⟩

/-- The product of this rate with the size of one input and two outputs wraps to
less than 1000. -/
def wrappingPolicy : PayoutPolicy := { samplePolicy with feeRatePerKb := 48930355633181835 }

def underpaidPayout : PayoutPlan := { samplePayout with changeOutputs := [5999999], fee := 1 }

/-- The two hashes of the preimage of `underpaidPayout`. -/
def underpaidSha256 (bytes : List UInt8) : Bytes32 :=
  if bytes.length = 32 then
    beWord 0x944d4f456fe05b482f77324fa5eec56928cc6fcc810d8c1a0cfadd8a32f4a515
  else beWord 0x1a10d2e453238324268600d31773f465daddf5af56d1cecbd6e7e001394c7ca0

/-- The signatures of `underpaidPayout` with the first two keys. -/
def underpaidSignatures : List (ℕ × ℕ) :=
  [(0x774ae7f858a9411e5ef4246b70c65aac5649980be5c17891bbec17895da008cb,
      0x10dd679faf53cc3814f93855f27bd1957ac49b8e2237d7e8c763c3acbab7e3d),
    (0xf28773c2d975288bc7d1d205c3748651b075fbc6610e58cddeeddf8f19405aa8,
      0x955dcd48c85be7d84daae07037310288b696fcfaf1f75f11979fd8122d94baf)]

def underpaidEcdsa : Ecdsa :=
  knownEcdsa (underpaidSha256 (List.replicate 32 0))
    (sampleVault.signerPubkeys.zip underpaidSignatures)

theorem underpaid_rederived : rederivePlan sampleHash160 (fun _ _ => none) (fun _ => none)
    wrappingPolicy sampleVault (Vector.replicate 20 0x22) 4000000 [sampleFunding] [] =
      .ok underpaidPayout := by
  have hselect : selectPayout wrappingPolicy sampleVault 4000000 [sampleFunding] [] =
      .ok ⟨[sampleFunding], 10000000, 1⟩ := by decide +kernel
  have hcontext : inputContext sampleHash160 (fun _ _ => none) (fun _ => none) sampleVault
      sampleFunding = .ok ⟨sampleVault, none⟩ := if_pos (decide_eq_true rfl)
  have hchange : finalizeFanout ⟨[sampleFunding], 10000000, 1⟩ 4000000 1
      (multisigInputBytes sampleVault.threshold sampleVault.redeemScript.length)
      wrappingPolicy.feeRatePerKb wrappingPolicy.dustThreshold
      wrappingPolicy.changeFanoutTargetAtomic wrappingPolicy.changeFanoutMaxOutputs =
        ([5999999], 1) := by decide +kernel
  simp only [rederivePlan, bind_eq_ok, mapError_eq_ok, pure_eq_ok]
  refine ⟨_, hselect, [⟨sampleVault, none⟩], ?_, ?_⟩
  · rw [List.mapM_cons, hcontext]
    rfl
  · rw [List.length_singleton, hchange]
    rfl

/-- There a payout of an output to a recipient and to the vault is signed with a
fee of one unit. -/
theorem fee_wraps : ∃ tx,
    rederivePlan sampleHash160 (fun _ _ => none) (fun _ => none) wrappingPolicy sampleVault
      (Vector.replicate 20 0x22) 4000000 [sampleFunding] [] = .ok underpaidPayout ∧
    completeFrom underpaidEcdsa underpaidSha256 0 (buildUnsignedTx underpaidPayout)
      [(sampleVault, [samplePartial 0 (underpaidSignatures[0]),
        samplePartial 1 (underpaidSignatures[1])])] = .ok tx ∧
    1000 * underpaidPayout.fee < wrappingPolicy.feeRatePerKb * tx.serialize.length := by
  have hcomplete : (completeFrom underpaidEcdsa underpaidSha256 0 (buildUnsignedTx underpaidPayout)
      [(sampleVault, [samplePartial 0 (underpaidSignatures[0]),
        samplePartial 1 (underpaidSignatures[1])])]).toOption.isSome = true := by decide +kernel
  obtain ⟨tx, htx⟩ := Option.isSome_iff_exists.mp hcomplete
  have hpos : 1 ≤ tx.serialize.length := by
    rw [Transaction.serialize]
    simp only [List.length_append, length_u32Bytes]
    omega
  refine ⟨tx, underpaid_rederived, toOption_eq_some.mp htx, ?_⟩
  calc 1000 * underpaidPayout.fee
      < wrappingPolicy.feeRatePerKb * 1 := by decide
    _ ≤ wrappingPolicy.feeRatePerKb * tx.serialize.length := Nat.mul_le_mul_left _ hpos

end Goldcoin
