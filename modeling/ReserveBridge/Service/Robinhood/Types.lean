-- SUMMARY: The outbound operations on Robinhood as the schema keeps them: rows with all their columns, the checks and unique indexes, the submitter accounts, and the errors.
import Mathlib.Tactic.MkIffOfInductiveProp
import ReserveBridge.Lib.Table
import ReserveBridge.Service.Ledger.Types

/-!
# Operations on Robinhood: the tables

`robinhood_transactions`, with `robinhood_authorization_signatures`, and
`evm_submitter_state`, as `service/src/ledger/schema.rs` leaves them after its
last migration. A signature row is kept with its operation, in the order of
`position`. Ids, hashes and addresses that are only compared are numbers.
-/

namespace Service.Robinhood
open Guard

/-- `x as u64`. -/
def asU64 (x : ℤ) : ℕ := (x % 2 ^ 64).toNat

theorem asU64_of_nonneg {x : ℤ} (h₀ : 0 ≤ x) (h : x < 2 ^ 63) : (asU64 x : ℤ) = x := by
  unfold asU64
  omega

/-! ## Rows -/

/-- `RobinhoodTxKind`. -/
inductive TxKind
  | payout | settlement | refund | treasuryWithdraw
  deriving DecidableEq, Repr

namespace TxKind

/-- The action byte of the contract. -/
def action : TxKind → ℤ
  | payout => 1
  | refund => 2
  | settlement => 3
  | treasuryWithdraw => 12

def settlesABridgeRequest (k : TxKind) : Prop := k ≠ treasuryWithdraw

instance (k : TxKind) : Decidable k.settlesABridgeRequest := inferInstanceAs (Decidable (_ ≠ _))

end TxKind

/-- What an operation is, and what it was authorized for: the columns that are
written when the row is. -/
structure Payload where
  kind : TxKind
  requestId : Option ℕ
  rebalanceRequestId : Option ℕ
  route : Option Direction
  bridgeContract : ℕ
  chainId : ℤ
  action : ℤ
  contractRequestId : ℕ
  obligationIndex : Option ℤ
  recipient : Option ℕ
  amountRobinhood : Option ℕ
  signerEpoch : ℤ
  expiry : ℤ
  authDigest : ℕ
  deriving DecidableEq, Repr

/-- The values of `failure_reason`. -/
inductive FailureReason
  /-- `receipt moved from block {stored} to block {block}`. -/
  | receiptMoved (stored : ℤ) (block : ℕ)
  /-- `the transaction was mined and REVERTED`. -/
  | minedAndReverted
  /-- `chain_terminal_reconciliation: …`. -/
  | chainTerminalReconciliation
  | given (reason : String)
  deriving DecidableEq, Repr

/-- A row of `robinhood_transactions`. -/
structure Tx extends Payload where
  state : RobinhoodTxState
  /-- Signer and signature, by `position`. -/
  signatures : List (ℕ × ℕ)
  submitter : Option ℕ
  nonce : Option ℤ
  envelope : Option String
  gasLimit : Option ℤ
  feeSummary : Option String
  rawTx : Option Bytes
  txHash : Option ℕ
  firstBroadcastAt : Option ℤ
  lastBroadcastAt : Option ℤ
  broadcastAttempts : ℤ
  replacementAttempts : ℤ
  /-- 1 or 0. -/
  receiptStatus : Option Bool
  receiptBlockNumber : Option ℤ
  receiptBlockHash : Option ℕ
  confirmations : ℤ
  finalizedAt : Option ℤ
  failureReason : Option FailureReason
  createdAt : ℤ
  updatedAt : ℤ
  deriving DecidableEq, Repr

/-! ## The schema -/

/-- The checks on the columns of the payload. -/
@[mk_iff] structure Payload.Checks (p : Payload) : Prop where
  route_robinhood : ∀ d ∈ p.route, d.sourceIsRobinhood ∨ d.destinationIsRobinhood
  chainId_pos : 0 < p.chainId
  obligationIndex_nonneg : ∀ i ∈ p.obligationIndex, 0 ≤ i
  signerEpoch_nonneg : 0 ≤ p.signerEpoch
  expiry_pos : 0 < p.expiry
  requestId_none : p.kind = .treasuryWithdraw ↔ p.requestId = none
  rebalanceRequestId_isSome : p.kind = .treasuryWithdraw ↔ p.rebalanceRequestId.isSome
  route_none : p.kind = .treasuryWithdraw ↔ p.route = none
  obligationIndex_none :
    p.kind = .payout ∨ p.kind = .treasuryWithdraw ↔ p.obligationIndex = none
  recipient_none : p.kind = .settlement ↔ p.recipient = none
  amountRobinhood_none : p.recipient = none ↔ p.amountRobinhood = none
  action_eq : p.action = p.kind.action
  route_payout : ∀ d ∈ p.route, p.kind = .payout ↔ d.destinationIsRobinhood

/-- The states that nothing is in before it was signed. -/
def needsSignedBytes : RobinhoodTxState → Bool
  | .signed | .broadcast | .included | .finalized | .reverted => true
  | .authorizing | .authorized | .manualReview => false

/-- The checks on a row. -/
@[mk_iff] structure Tx.Checks (t : Tx) : Prop where
  payload : t.toPayload.Checks
  nonce_nonneg : ∀ n ∈ t.nonce, 0 ≤ n
  submitter_none : t.submitter = none ↔ t.nonce = none
  envelope_known : ∀ e ∈ t.envelope, e = "legacy" ∨ e = "eip1559"
  gasLimit_pos : ∀ g ∈ t.gasLimit, 0 < g
  txHash_none : t.rawTx = none ↔ t.txHash = none
  envelope_none : t.rawTx = none ↔ t.envelope = none
  signed : needsSignedBytes t.state → t.rawTx.isSome ∧ t.nonce.isSome
  broadcastAttempts_nonneg : 0 ≤ t.broadcastAttempts
  replacementAttempts_nonneg : 0 ≤ t.replacementAttempts
  firstBroadcastAt_none : t.firstBroadcastAt = none ↔ t.broadcastAttempts = 0
  receiptBlockNumber_nonneg : ∀ n ∈ t.receiptBlockNumber, 0 ≤ n
  confirmations_nonneg : 0 ≤ t.confirmations
  finalized_receipt : t.state = .finalized → t.receiptStatus = some true
  finalizedAt_none : t.finalizedAt = none ↔ t.state ≠ .finalized

instance (p : Payload) : Decidable p.Checks := decidable_of_iff _ (Payload.checks_iff p).symm
instance (t : Tx) : Decidable t.Checks := decidable_of_iff _ (Tx.checks_iff t).symm

/-- The entries of the unique indexes. -/
inductive IndexEntry
  /-- `ux_robinhood_tx_operation`. -/
  | operation (kind : TxKind) (requestId : ℕ)
  /-- `ux_robinhood_tx_contract_request`. -/
  | contractRequest (chainId : ℤ) (bridgeContract : ℕ) (action : ℤ) (contractRequestId : ℕ)
  /-- `ux_robinhood_tx_rebalance`. -/
  | rebalance (rebalanceRequestId : ℕ)
  /-- `ux_robinhood_tx_nonce`. -/
  | nonce (submitter : ℕ) (chainId nonce : ℤ)
  deriving DecidableEq, Repr

/-- The index entries of a row: one with a null column has none. -/
def Tx.index (t : Tx) : List IndexEntry :=
  (t.requestId.map (.operation t.kind)).toList ++
    (t.rebalanceRequestId.map .rebalance).toList ++
    ((t.submitter.bind fun s => t.nonce.map (.nonce s t.chainId)).toList ++
      [.contractRequest t.chainId t.bridgeContract t.action t.contractRequestId])

/-- A row of `evm_submitter_state`, without its key. -/
structure SubmitterState where
  observedNonce : ℤ
  observedAt : ℤ
  deriving DecidableEq, Repr

/-- The tables. Of the two tables that operations refer to, the ids. -/
structure Tables where
  transactions : Table Tx.Checks Tx.index
  submitters : Store (ℕ × ℤ) SubmitterState
  bridgeRequests : List ℕ
  rebalanceRequests : List ℕ

def Tables.empty : Tables := ⟨.empty, .empty, [], []⟩

/-! ## Errors -/

/-- The details of `RobinhoodTxInvalid`. -/
inductive Detail
  /-- `a {kind} operation must name {…} and no other subject`. -/
  | subject (kind : TxKind)
  /-- `a quorum is exactly two signatures, not {count}`. -/
  | notAQuorum (count : ℕ)
  /-- `both signatures recovered to the same signer`. -/
  | sameSigner
  /-- `a DIFFERENT authorization is already stored for this operation`. -/
  | otherAuthorization
  /-- `this operation was authorized for chain {row}`. -/
  | otherChain (row : ℤ) (requested : ℕ)
  /-- `this operation's nonce was allocated for a DIFFERENT submitter account`. -/
  | otherSubmitter
  /-- `different signed bytes are already stored for this operation`. -/
  | otherBytes
  /-- `a broadcast operation with no nonce cannot be replaced`. -/
  | noNonce
  /-- `a finalized operation cannot be moved to ManualReview`. -/
  | finalized
  deriving DecidableEq, Repr

inductive TxError
  | invalid (id : ℕ) (detail : Detail)
  | wrongState (id : ℕ) (expected actual : RobinhoodTxState)
  /-- There is no row with the id. -/
  | noRow
  /-- The schema refuses the row. -/
  | constraint
  deriving DecidableEq, Repr

namespace Tables

variable {T T' : Tables} {id : ℕ} {t t' : Tx}

/-- `SELECT … FROM robinhood_transactions WHERE id`. -/
def tx (T : Tables) (id : ℕ) : Except TxError Tx := orFail (T.transactions.get? id) .noRow

@[simp] theorem tx_eq_ok : T.tx id = .ok t ↔ T.transactions.get? id = some t := orFail_eq_ok

/-- `UPDATE robinhood_transactions … WHERE id`. -/
def setTx (T : Tables) (id : ℕ) (t : Tx) : Except TxError Tables := do
  let transactions ← orFail (T.transactions.update id t) .constraint
  return { T with transactions := transactions }

/-- The row under `id` became `t`, and nothing else changed. -/
structure Sets (T : Tables) (id : ℕ) (t : Tx) (T' : Tables) : Prop where
  admits : T.transactions.Admits id t
  get? : ∀ k, T'.transactions.get? k = if k = id then some t else T.transactions.get? k
  submitters : T'.submitters = T.submitters
  bridgeRequests : T'.bridgeRequests = T.bridgeRequests
  rebalanceRequests : T'.rebalanceRequests = T.rebalanceRequests

theorem setTx_eq_ok (h : T.setTx id t = .ok T') (hget : T.transactions.get? id = some t') :
    Sets T id t T' := by
  simp only [setTx, bind_eq_ok, orFail_eq_ok, pure_eq_ok] at h
  obtain ⟨transactions, hupdate, rfl⟩ := h
  obtain ⟨hadmits, hrows⟩ := Table.update_eq_some hupdate hget
  exact ⟨hadmits, hrows, rfl, rfl, rfl⟩

/-- What the schema admits is written. -/
theorem exists_setTx (hget : T.transactions.get? id = some t')
    (h : T.transactions.Admits id t) : ∃ T', T.setTx id t = .ok T' := by
  obtain ⟨transactions, hupdate⟩ := Table.exists_update hget h
  refine ⟨{ T with transactions := transactions }, ?_⟩
  simp only [setTx, bind_eq_ok, orFail_eq_ok, pure_eq_ok]
  exact ⟨transactions, hupdate, rfl⟩

end Tables

end Service.Robinhood
