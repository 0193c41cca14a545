-- SUMMARY: Coin selection for Goldcoin payouts: the size estimate behind a fee, the selection strategies, and the fan-out of the change.
import ReserveBridge.Lib.Bytes
import ReserveBridge.Lib.Descending
import Mathlib.Data.List.MinMax
import Mathlib.Data.List.Sort
import Mathlib.Data.Prod.Lex

/-!
# Coin selection

`service/src/goldcoin/coin.rs`. The release build of the service has no overflow
checks, so its `u64` arithmetic wraps. The amounts that selection adds are those
of outputs on the chain and of a request, which add up to far less than `2 ^ 64`,
and are added as naturals. A fee rate is bounded by nothing, and its product with
a size wraps. So do the sums of a plan when it is checked.
-/

namespace Goldcoin
open Bytes

/-! ## Fees -/

def txOverheadBytes : ℕ := 10
def p2pkhOutputBytes : ℕ := 34
def maxSignatureBytes : ℕ := 73

/-- `div_ceil`. -/
def divCeil (a b : ℕ) : ℕ := (a + b - 1) / b

def multisigInputBytes (threshold redeemScriptLen : ℕ) : ℕ :=
  let redeemPushPrefix := if redeemScriptLen < 0x4c then 1 else if redeemScriptLen ≤ 0xff then 2 else 3
  let scriptSigLen := 1 + threshold * (1 + maxSignatureBytes) + redeemPushPrefix + redeemScriptLen
  let scriptSigVarintBytes := if scriptSigLen < 0xfd then 1 else 3
  36 + scriptSigVarintBytes + scriptSigLen + 4

/-- The size a fee is computed for. -/
def sizeFor (numInputs numOutputs inputBytes : ℕ) : ℕ :=
  txOverheadBytes + numInputs * inputBytes + numOutputs * p2pkhOutputBytes

/-- `fee_for`. The remainder is that of the product: a size that wraps leaves the
same one. -/
def feeFor (numInputs numOutputs feeRatePerKb inputBytes : ℕ) : ℕ :=
  divCeil (sizeFor numInputs numOutputs inputBytes * feeRatePerKb % 2 ^ 64) 1000

/-- A sum of the amounts of a plan. -/
def wrappingSum (amounts : List ℕ) : ℕ := amounts.sum % 2 ^ 64

theorem wrappingSum_of_lt {amounts : List ℕ} (h : amounts.sum < 2 ^ 64) :
    wrappingSum amounts = amounts.sum :=
  Nat.mod_eq_of_lt h

/-! ## Selection -/

/-- An output of the vault that can be spent. -/
structure VaultUtxo where
  txid : Bytes32
  vout : ℕ
  amount : ℕ
  scriptPubkeyHex : String
  deriving DecidableEq

/-- The key of `min_by_key` and `sort_by_key`. Arrays of bytes compare as
big-endian numbers do. -/
def VaultUtxo.key (u : VaultUtxo) : ℕ ×ₗ ℕ ×ₗ ℕ :=
  toLex (u.amount, toLex (beValue u.txid.toList, u.vout))

inductive CoinSelectionError
  | insufficient (required available : ℕ)
  | tooManyInputs (max : ℕ)
  deriving DecidableEq, Repr

structure SelectionResult where
  selected : List VaultUtxo
  totalSelected : ℕ
  fee : ℕ
  deriving DecidableEq

/-- `change_of`. -/
def SelectionResult.changeOf (r : SelectionResult) (amount : ℕ) : ℕ := r.totalSelected - amount - r.fee

abbrev total (us : List VaultUtxo) : ℕ := Descending.sum VaultUtxo.amount us

section Select

variable (amount feeRatePerKb inputBytes maxInputs : ℕ)

/-- The loop of `smallest_first_combination`, with what it has taken. -/
def combine (selected : List VaultUtxo) (sum : ℕ) : List VaultUtxo → Option SelectionResult
  | [] => none
  | u :: rest =>
    if maxInputs ≤ selected.length then none
    else
      let selected := selected ++ [u]
      let sum := sum + u.amount
      let fee := feeFor selected.length 2 feeRatePerKb inputBytes
      if amount + fee ≤ sum then some ⟨selected, sum, fee⟩
      else combine selected sum rest

def smallestFirstCombination (candidates : List VaultUtxo) (excludeAtOrAbove : ℕ) :
    Option SelectionResult :=
  let ascending := (candidates.filter fun u => u.amount < excludeAtOrAbove).insertionSort
    fun u v => u.key ≤ v.key
  combine amount feeRatePerKb inputBytes maxInputs [] 0 ascending

/-- The loop of the third strategy, with what it has taken. It returns nothing
when the candidates are used up. -/
def accumulate (selected : List VaultUtxo) (sum : ℕ) :
    List VaultUtxo → Option (Except CoinSelectionError SelectionResult)
  | [] => none
  | u :: rest =>
    let selected := selected ++ [u]
    let sum := sum + u.amount
    if maxInputs < selected.length then some (.error (.tooManyInputs maxInputs))
    else
      let fee := feeFor selected.length 2 feeRatePerKb inputBytes
      if amount + fee ≤ sum then some (.ok ⟨selected, sum, fee⟩)
      else accumulate selected sum rest

/-- The first strategy: one output that leaves no change. -/
def exactMatch (candidates : List VaultUtxo) : Option VaultUtxo :=
  candidates.find? fun u => u.amount = amount + feeFor 1 1 feeRatePerKb inputBytes

/-- The smallest output that covers the amount by itself, with change. -/
def smallestSingle (candidates : List VaultUtxo) : Option VaultUtxo :=
  (candidates.filter fun u => amount + feeFor 1 2 feeRatePerKb inputBytes ≤ u.amount).argmin
    VaultUtxo.key

end Select

def select (candidates : List VaultUtxo) (amount feeRatePerKb threshold redeemScriptLen maxInputs : ℕ) :
    Except CoinSelectionError SelectionResult :=
  let inputBytes := multisigInputBytes threshold redeemScriptLen
  match exactMatch amount feeRatePerKb inputBytes candidates with
  | some u => .ok ⟨[u], u.amount, feeFor 1 1 feeRatePerKb inputBytes⟩
  | none =>
    match smallestSingle amount feeRatePerKb inputBytes candidates with
    | some single =>
      let singleResult : SelectionResult :=
        ⟨[single], single.amount, feeFor 1 2 feeRatePerKb inputBytes⟩
      match smallestFirstCombination amount feeRatePerKb inputBytes maxInputs candidates
          single.amount with
      | some combo =>
        if combo.changeOf amount < singleResult.changeOf amount then .ok combo else .ok singleResult
      | none => .ok singleResult
    | none =>
      match accumulate amount feeRatePerKb inputBytes maxInputs [] 0 candidates with
      | some result => result
      | none =>
        .error (.insufficient (amount + feeFor (max candidates.length 1) 2 feeRatePerKb inputBytes)
          (total candidates))

/-! ## Change -/

/-- `split::distribute_evenly`. -/
def distributeEvenly (distributable chunkCount : ℕ) : List ℕ :=
  if chunkCount = 0 then []
  else
    let base := distributable / chunkCount
    let remainder := distributable % chunkCount
    (List.range chunkCount).map fun i => if i < remainder then base + 1 else base

/-- The loop of `finalize_fanout`, from a number of change outputs downwards. -/
def fanoutFrom (leftover numInputs inputBytes feeRatePerKb dustThreshold : ℕ) : ℕ → List ℕ × ℕ
  | 0 => ([], leftover)
  | n + 1 =>
    let fee := feeFor numInputs (1 + (n + 1)) feeRatePerKb inputBytes
    if leftover < fee then fanoutFrom leftover numInputs inputBytes feeRatePerKb dustThreshold n
    else
      let amounts := distributeEvenly (leftover - fee) (n + 1)
      if amounts.min?.getD 0 < dustThreshold then
        fanoutFrom leftover numInputs inputBytes feeRatePerKb dustThreshold n
      else (amounts, fee)

def finalizeFanout (result : SelectionResult) (amount numInputs inputBytes feeRatePerKb dustThreshold
    targetOutput maxOutputs : ℕ) : List ℕ × ℕ :=
  let maxOutputs := max maxOutputs 1
  let leftover := result.totalSelected - amount
  let numChangeOutputs :=
    if leftover = 0 then 0 else min (max (divCeil leftover (max targetOutput 1)) 1) maxOutputs
  fanoutFrom leftover numInputs inputBytes feeRatePerKb dustThreshold numChangeOutputs

end Goldcoin
