-- SUMMARY: The plan of a Goldcoin payout: which outputs of the vault it spends, confirmed or not, which vault controls each, and the transaction built and completed from it.
import ReserveBridge.Goldcoin.Coin
import ReserveBridge.Goldcoin.Multisig
import ReserveBridge.Goldcoin.Tx

/-!
# Payout plans

`service/src/goldcoin/{payout,derivation}.rs` and `rederive_plan` of
`service/src/signing/goldcoin_vault.rs`, from the point on where the request was
checked. The pools of outputs are what the ledger answers, confirmed outputs and
outputs that wait for a confirmation.
-/

namespace Goldcoin
open Bytes Guard

/-! ## Policy -/

inductive ZeroConfChangeMode
  | depthLimited
  | bridgeOwnedRecursive
  deriving DecidableEq, Repr

structure PayoutPolicy where
  feeRatePerKb : ℕ
  dustThreshold : ℕ
  maxInputs : ℕ
  changeFanoutTargetAtomic : ℕ
  zeroConfChangeMaxDepth : ℕ
  zeroConfChangeMode : ZeroConfChangeMode
  zeroConfChangeRecursiveChainLimit : ℕ
  changeFanoutMaxOutputs : ℕ

def PayoutPolicy.effectiveZeroConfDepth (policy : PayoutPolicy) : ℕ :=
  if policy.zeroConfChangeMaxDepth = 0 then 0
  else
    match policy.zeroConfChangeMode with
    | .depthLimited => policy.zeroConfChangeMaxDepth
    | .bridgeOwnedRecursive => policy.zeroConfChangeRecursiveChainLimit

/-- Change of the service's own payouts that is short of confirmations. -/
structure ZeroConfChangeCandidate where
  utxo : VaultUtxo
  unconfirmedAncestorDepth : ℕ
  confirmations : ℕ
  deriving DecidableEq

/-! ## Selection -/

section Selection

variable (policy : PayoutPolicy) (vault : MultisigVault) (payoutAtomic : ℕ)

/-- `select_from`. -/
def selectFrom (candidates : List VaultUtxo) : Except CoinSelectionError SelectionResult :=
  select candidates payoutAtomic policy.feeRatePerKb vault.threshold vault.redeemScript.length
    policy.maxInputs

/-- The order of the pools: by amount downwards, then by outpoint. -/
def VaultUtxo.poolKey (u : VaultUtxo) : ℕᵒᵈ ×ₗ ℕ ×ₗ ℕ :=
  toLex (OrderDual.toDual u.amount, toLex (beValue u.txid.toList, u.vout))

/-- The confirmed outputs and the candidates, in order. -/
def combinedPool (confirmed : List VaultUtxo) (zeroConf : List ZeroConfChangeCandidate) :
    List VaultUtxo :=
  (confirmed ++ zeroConf.map ZeroConfChangeCandidate.utxo).insertionSort
    fun u v => u.poolKey ≤ v.poolKey

/-- The unconfirmed ancestors an output adds to a transaction. -/
def ancestors (zeroConf : List ZeroConfChangeCandidate) (u : VaultUtxo) : ℕ :=
  match zeroConf.find? fun c => c.utxo.txid = u.txid ∧ c.utxo.vout = u.vout with
  | some c => if c.confirmations = 0 then c.unconfirmedAncestorDepth else 0
  | none => 0

def budgetUsed (zeroConf : List ZeroConfChangeCandidate) (selected : List VaultUtxo) : ℕ :=
  (selected.map (ancestors zeroConf)).sum

def withinBudget (zeroConf : List ZeroConfChangeCandidate) (selected : List VaultUtxo) : Bool :=
  match policy.zeroConfChangeMode with
  | .depthLimited => true
  | .bridgeOwnedRecursive =>
    budgetUsed zeroConf selected ≤ policy.zeroConfChangeRecursiveChainLimit

/-- The index of the deepest candidate, the last one among equals. -/
def deepest (zeroConf : List ZeroConfChangeCandidate) : Option ℕ :=
  let unconfirmed := zeroConf.zipIdx.filter fun c => c.1.confirmations = 0
  (unconfirmed.argmax fun c => toLex (c.1.unconfirmedAncestorDepth,
    toLex (beValue c.1.utxo.txid.toList, toLex (c.1.utxo.vout, c.2)))).map Prod.snd

/-- One round of the loop: what the combined pool gives, when it is within the
budget. -/
def selectRound (confirmed : List VaultUtxo) (zeroConf : List ZeroConfChangeCandidate) :
    Except CoinSelectionError (Option SelectionResult) := do
  let selection ← selectFrom policy vault payoutAtomic (combinedPool confirmed zeroConf)
  return if withinBudget policy zeroConf selection.selected then some selection else none

/-- The loop over the combined pool. It removes a candidate in each round but the
last, and without candidates there is none to remove. -/
def selectWithin (confirmed : List VaultUtxo) :
    ℕ → List ZeroConfChangeCandidate → Except CoinSelectionError SelectionResult
  | 0, zeroConf => do
    let found ← selectRound policy vault payoutAtomic confirmed zeroConf
    orFail found (.insufficient payoutAtomic 0)
  | rounds + 1, zeroConf => do
    match ← selectRound policy vault payoutAtomic confirmed zeroConf with
    | some selection => return selection
    | none =>
      let i ← orFail (deepest zeroConf) (.insufficient payoutAtomic 0)
      selectWithin confirmed rounds (zeroConf.eraseIdx i)

/-- The selection step of `rederive_plan`. -/
def selectPayout (confirmed : List VaultUtxo) (zeroConf : List ZeroConfChangeCandidate) :
    Except CoinSelectionError SelectionResult :=
  match selectFrom policy vault payoutAtomic confirmed with
  | .ok selection => .ok selection
  | .error (.insufficient required available) =>
    if 0 < policy.effectiveZeroConfDepth then
      selectWithin policy vault payoutAtomic confirmed zeroConf.length zeroConf
    else .error (.insufficient required available)
  | .error (.tooManyInputs max) => .error (.tooManyInputs max)

variable {policy vault payoutAtomic} {confirmed : List VaultUtxo} {selection : SelectionResult}

theorem selectRound_eq_some {zeroConf : List ZeroConfChangeCandidate}
    (h : selectRound policy vault payoutAtomic confirmed zeroConf = .ok (some selection)) :
    selectFrom policy vault payoutAtomic (combinedPool confirmed zeroConf) = .ok selection ∧
      withinBudget policy zeroConf selection.selected = true := by
  simp only [selectRound, bind_eq_ok, pure_eq_ok] at h
  obtain ⟨found, hfound, h⟩ := h
  split_ifs at h with hwithin
  obtain rfl := Option.some.inj h
  exact ⟨hfound, hwithin⟩

/-- What the loop returns was selected from one of its pools. -/
theorem selectWithin_eq_ok {rounds : ℕ} {zeroConf : List ZeroConfChangeCandidate}
    (h : selectWithin policy vault payoutAtomic confirmed rounds zeroConf = .ok selection) :
    ∃ pool, selectFrom policy vault payoutAtomic pool = .ok selection := by
  induction rounds generalizing zeroConf with
  | zero =>
    simp only [selectWithin, bind_eq_ok, orFail_eq_ok] at h
    obtain ⟨_, hround, rfl⟩ := h
    exact ⟨_, (selectRound_eq_some hround).1⟩
  | succ rounds ih =>
    simp only [selectWithin, bind_eq_ok] at h
    obtain ⟨found, hround, h⟩ := h
    cases found with
    | some found =>
      obtain rfl := pure_eq_ok.mp h
      exact ⟨_, (selectRound_eq_some hround).1⟩
    | none =>
      obtain ⟨i, -, h⟩ := bind_eq_ok.mp h
      exact ih h

theorem selectPayout_eq_ok {zeroConf : List ZeroConfChangeCandidate}
    (h : selectPayout policy vault payoutAtomic confirmed zeroConf = .ok selection) :
    ∃ pool, selectFrom policy vault payoutAtomic pool = .ok selection := by
  unfold selectPayout at h
  split at h
  · rename_i found hfound
    exact ⟨confirmed, Except.ok.inj h ▸ hfound⟩
  · split_ifs at h
    exact selectWithin_eq_ok h
  · cases h

end Selection

/-! ## The vaults of the inputs -/

/-- `hex::encode`. -/
def hexEncode (bytes : List UInt8) : String :=
  String.ofList (bytes.flatMap fun b => [Nat.digitChar (b.toNat / 16), Nat.digitChar (b.toNat % 16)])

/-- `eq_ignore_ascii_case`. -/
def eqIgnoreAsciiCase (s t : String) : Bool := s.toList.map Char.toLower = t.toList.map Char.toLower

inductive SigningError
  | coinSelection (error : CoinSelectionError)
  | unknownVaultUtxoScript (scriptHex : String)
  | derivation (error : VaultError)
  | tweakFailed (requestId : ℤ)
  deriving DecidableEq

/-- The vault of a deposit address. The tweak of a key is the curve's. -/
def deriveRequestVault (tweak : ℤ → Pubkey → Option Pubkey) (root : MultisigVault) (requestId : ℤ) :
    Except SigningError MultisigVault := do
  let tweakedPubkeys ← orFail (root.signerPubkeys.mapM (tweak requestId)) (.tweakFailed requestId)
  match h : validateSignerSet tweakedPubkeys root.threshold with
  | .ok () => .ok ⟨tweakedPubkeys, root.threshold, h⟩
  | .error e => .error (.derivation e)

structure PayoutInputContext where
  vault : MultisigVault
  fundingRequestId : Option ℤ

section Plan

variable (hash160 : List UInt8 → Vector UInt8 20) (tweak : ℤ → Pubkey → Option Pubkey)
  (findGoldcoinDepositRequestByScript : String → Option ℤ)

/-- The vault that controls an output: the root vault, or that of a deposit. -/
def inputContext (vault : MultisigVault) (u : VaultUtxo) : Except SigningError PayoutInputContext :=
  if eqIgnoreAsciiCase u.scriptPubkeyHex (hexEncode (vault.scriptPubkey hash160)) then
    .ok ⟨vault, none⟩
  else do
    let fundingRequestId ← orFail (findGoldcoinDepositRequestByScript u.scriptPubkeyHex)
      (.unknownVaultUtxoScript u.scriptPubkeyHex)
    let derivedVault ← deriveRequestVault tweak vault fundingRequestId
    return ⟨derivedVault, some fundingRequestId⟩

structure PayoutPlan where
  inputs : List VaultUtxo
  inputContexts : List PayoutInputContext
  destP2pkhHash : Vector UInt8 20
  payoutAtomic : ℕ
  changeOutputs : List ℕ
  vaultScriptPubkey : List UInt8
  fee : ℕ

def rederivePlan (policy : PayoutPolicy) (vault : MultisigVault) (destP2pkhHash : Vector UInt8 20)
    (payoutAtomic : ℕ) (confirmed : List VaultUtxo) (zeroConf : List ZeroConfChangeCandidate) :
    Except SigningError PayoutPlan := do
  let selection ← (selectPayout policy vault payoutAtomic confirmed zeroConf).mapError
    .coinSelection
  let inputBytes := multisigInputBytes vault.threshold vault.redeemScript.length
  let change := finalizeFanout selection payoutAtomic selection.selected.length inputBytes
    policy.feeRatePerKb policy.dustThreshold policy.changeFanoutTargetAtomic
    policy.changeFanoutMaxOutputs
  let inputContexts ← selection.selected.mapM
    (inputContext hash160 tweak findGoldcoinDepositRequestByScript vault)
  return {
    inputs := selection.selected
    inputContexts := inputContexts
    destP2pkhHash := destP2pkhHash
    payoutAtomic := payoutAtomic
    changeOutputs := change.1
    vaultScriptPubkey := vault.scriptPubkey hash160
    fee := change.2 }

end Plan

/-! ## The transaction -/

def p2pkhScript (hash : Vector UInt8 20) : List UInt8 :=
  [0x76, 0xa9, 0x14] ++ hash.toList ++ [0x88, 0xac]

def buildUnsignedTx (plan : PayoutPlan) : Transaction where
  version := 1
  inputs := plan.inputs.map fun u => TxIn.unsigned u.txid (UInt32.ofNat u.vout)
  outputs := ⟨UInt64.ofNat plan.payoutAtomic, p2pkhScript plan.destP2pkhHash⟩ ::
    plan.changeOutputs.map fun change => ⟨UInt64.ofNat change, plan.vaultScriptPubkey⟩
  locktime := 0

/-- Puts a script into an input. -/
def Transaction.withScript (tx : Transaction) (inputIndex : ℕ) (script : List UInt8) : Transaction :=
  { tx with inputs := tx.inputs.modify inputIndex fun input => { input with scriptSig := script } }

/-- The signing loop: the vault and the partial signatures of one input after the
other. -/
def completeFrom (E : Ecdsa) (sha256 : List UInt8 → Bytes32) (inputIndex : ℕ) (tx : Transaction) :
    List (MultisigVault × List PartialSignature) → Except MultisigError Transaction
  | [] => .ok tx
  | (vault, partials) :: rest => do
    let sighash := tx.sighashAll sha256 inputIndex vault.redeemScript
    let script ← assemble E vault sighash partials
    completeFrom E sha256 (inputIndex + 1) (tx.withScript inputIndex script) rest

end Goldcoin
