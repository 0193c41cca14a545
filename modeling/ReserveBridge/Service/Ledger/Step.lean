-- SUMMARY: The ledger as a state machine: its settings, one constructor for each transaction, the step function, and the empty ledger.
import ReserveBridge.Service.Ledger.Vault
import ReserveBridge.Lib.Run

/-!
# The ledger as a state machine

Every transaction of the ledger is one operation. A transaction that fails rolls
back and leaves no state.
-/

namespace Service
open Guard

/-! ## Settings -/

/-- What an operator or the configuration sets, the amounts of a reserve aside. -/
inductive Setting
  | paused (d : ReserveDirection) (b : Bool)
  | admission (d : ReserveDirection) (closed : Bool)
  | admissionBuffer (d : ReserveDirection) (buffer reopen : ℤ)
  | utxoPoolMinAvailable (d : ReserveDirection) (count : ℤ)
  | routeAdmission (d : Direction) (closed : Bool)
  | rapidBurst (policy : Option RapidBurstPolicy)
  | boundContract (contract : ℕ)
  | retainedCancel (enabled : Bool)

namespace Ledger

/-- The update of one setting. -/
def applySetting (l : Ledger) : Setting → Ledger
  | .paused d b => l.updateReserve d fun v => { v with paused := b }
  | .admission d closed => l.updateReserve d fun v => { v with admissionClosed := closed }
  | .admissionBuffer d buffer reopen => l.updateReserve d fun v =>
      { v with admissionBuffer := buffer, admissionReopen := reopen }
  | .utxoPoolMinAvailable d count => l.updateReserve d fun v =>
      { v with utxoPoolMinAvailableCount := count }
  | .routeAdmission d closed =>
    { l with routeAdmissionClosed := fun e => if e = d then closed else l.routeAdmissionClosed e }
  | .rapidBurst policy => { l with rapidBurstPolicy := policy }
  | .boundContract contract => { l with boundContract := some contract }
  | .retainedCancel enabled => { l with retainedCancelEnabled := enabled }

/-- `configure_reserve`: the balance counts for a new row only. -/
def configureReserve (l : Ledger) (d : ReserveDirection) (balance protectedMinimum : ℕ) : Ledger :=
  let row : Reserve := (l.reserves d).elim
    { totalReserveBalance := asI64 balance
      protectedMinimum := asI64 protectedMinimum
      reservedLiquidity := 0
      pendingObligations := 0
      settledLiquidityTotal := 0
      accruedFees := 0
      paused := false
      admissionClosed := false
      admissionBuffer := 0
      admissionReopen := 0
      liquidityAdmissionClosed := false
      utxoPoolMinAvailableCount := 0 }
    fun v => { v with protectedMinimum := asI64 protectedMinimum }
  { l with reserves := fun e => if e = d then some row else l.reserves e }

/-- `refresh_reserve_balance`. -/
def refreshReserveBalance (l : Ledger) (d : ReserveDirection) (observed : ℕ) : Ledger :=
  l.updateReserve d fun v => { v with totalReserveBalance := asI64 observed }

/-- The update of the reserve in `confirm_rebalance`. -/
def confirmRebalance (l : Ledger) (d : ReserveDirection) (delta : ℤ) : Ledger :=
  l.updateReserve d fun v => { v with totalReserveBalance := v.totalReserveBalance + delta }

/-- A vault operation, on the ledger. -/
def onVault (l : Ledger) (x : Except LedgerError Vault) : Except LedgerError Ledger :=
  x.map fun vault => { l with vault := vault }

end Ledger

/-! ## Operations -/

inductive Op
  | setting (s : Setting)
  | configureReserve (d : ReserveDirection) (balance protectedMinimum : ℕ)
  | refreshReserveBalance (d : ReserveDirection) (observed : ℕ)
  | confirmRebalance (d : ReserveDirection) (delta : ℤ)
  -- admission
  | evaluateLiquidityGate (d : ReserveDirection)
  | createRequest (d : Direction) (a : RequestAmounts) (recipient : Bytes)
      (requester sourceWallet : Option Bytes) (ttl now : ℤ)
  | foldSolDeposit (index : ℕ) (a : RequestAmounts) (requester recipient : Bytes)
      (refusal : Option FoldRefusal) (now : ℤ)
  | foldSolDepositToRobinhood (index : ℕ) (a : RequestAmounts) (requester : Bytes)
      (recipientEvm : Option Bytes) (rawDestination : Bytes) (routeOpen : Bool)
      (refusal : Option FoldRefusal) (now : ℤ)
  | foldRobinhoodDeposit (obs : Ledger.RobinhoodObservation) (a : RequestAmounts)
      (destination : Option Bytes) (routeOpen : Bool) (refusal : Option FoldRefusal) (now : ℤ)
  -- the Goldcoin source leg
  | expireReservations (now : ℤ)
  | cancelRequest (id : ℕ) (note : String)
  | recordGlcDepositObserved (id : ℕ) (dep : GlcDeposit) (lock : QuoteLock) (now : ℤ)
  | updateGlcConfirmations (id : ℕ) (confirmations : ℤ)
  | markGlcSourceFinalized (id : ℕ) (now : ℤ)
  | markGlcDepositSpentBeforeFinalized (id : ℕ)
  | markGlcReorged (id : ℕ)
  | goldcoinRollbackReorg (forkHeight : ℤ)
  -- manual review
  | parkForDestinationBounds (id : ℕ)
  | parkForForeignContract (id : ℕ)
  | setManualReviewHold (id : ℕ) (reviewAfter : Option ℤ) (note : String)
  | clearManualReviewHold (id : ℕ)
  | recordOperatorDecision (id : ℕ) (decision : OperatorDecision) (note : String)
      (emergency : Bool) (now : ℤ)
  | resumeManualReview (expected : Direction) (id : ℕ) (now : ℤ)
  | processHeldManualReview (id : ℕ) (note : String) (now : ℤ)
  | resumeGlcToSolDestinationBound (id : ℕ) (live : LiveSolanaBounds)
  | closeManualReview (id : ℕ) (disposition : ClosureDisposition) (reference note : String) (now : ℤ)
  -- refunds
  | beginSolanaRefund (id : ℕ) (verified : VerifiedRefundInputs) (note : String)
  | recordSolanaRefundBroadcast (id : ℕ)
  | markSolanaRefundConfirmed (id : ℕ)
  | returnRefundToManualReview (id : ℕ) (nothingLanded : Bool) (note : String)
  | beginGoldcoinRefund (id : ℕ) (observedAmount : ℕ) (inputs : List Outpoint) (note : String)
  | recordGoldcoinRefundSigned (id : ℕ)
  | recordGoldcoinRefundBroadcast (id : ℕ) (txid : Txid)
  | recordGoldcoinRefundConfirmed (id : ℕ)
  | reconcileGoldcoinRefundConfirmations (id : ℕ) (confirmations required : ℤ)
  | markRobinhoodRefundPending (id : ℕ)
  | markRobinhoodRefundConfirmed (id : ℕ)
  | markRobinhoodRequestManualReview (id : ℕ) (reason : ParkReason)
  -- the destination leg
  | recordReleaseSubmitted (id : ℕ) (signature : ℕ)
  | recordReleaseAttestation (id : ℕ)
  | markReleaseConfirmed (id : ℕ)
  | reconcileReleaseFromChain (id : ℕ)
  | reserveVaultUtxos (id : ℕ) (selected : List Outpoint) (depth : ℤ)
  | buildPayout (id : ℕ) (plan : PayoutPlan) (depth : ℤ)
  | recordGoldcoinPayoutSigned (id : ℕ)
  | recordGoldcoinPayoutBroadcast (id : ℕ) (txid : Txid)
  | updateGoldcoinPayoutConfirmations (id : ℕ) (confirmations requiredDepth : ℤ)
  | submitGoldcoinCompletion (id : ℕ) (signature : ℕ)
  | markGoldcoinCompletionConfirmed (id : ℕ)
  | applyCompletionLanded (id : ℕ)
  | beginRobinhoodTx (kind : RobinhoodTxKind) (id : ℕ) (authDigest : ℕ)
  | recordRobinhoodAuthorization (kind : RobinhoodTxKind) (id : ℕ) (signatures : List (ℕ × ℕ))
  | recordRobinhoodSigned (kind : RobinhoodTxKind) (id : ℕ) (rawTx : ℕ)
  | recordRobinhoodBroadcast (kind : RobinhoodTxKind) (id : ℕ)
  | recordRobinhoodReceipt (kind : RobinhoodTxKind) (id : ℕ) (success : Bool) (block : ℕ)
  | updateRobinhoodConfirmations (kind : RobinhoodTxKind) (id : ℕ)
      (confirmations required now : ℤ)
  | markRobinhoodTxManualReview (kind : RobinhoodTxKind) (id : ℕ)
  | markRobinhoodPayoutSettled (id : ℕ)
  | recordRobinhoodPayoutCompletionSubmitted (id : ℕ) (signature : ℕ)
  | markRobinhoodPayoutCompletionConfirmed (id : ℕ)
  | markRobinhoodSettlementConfirmed (id : ℕ)
  | reconcileRobinhoodSettlementFromChain (id : ℕ) (block : ℕ) (now : ℤ)
  -- the vault
  | syncVaultUtxos (observed : List ObservedUtxo) (minConfirmations : ℤ)
  | setZeroConfHold (txid : Txid) (hold : Bool)
  | recordSplitBuilt (source : Outpoint) (sourceAmount fee : ℤ) (chunkCount : ℕ)
  | recordSplitSigned (id : ℕ)
  | recordSplitBroadcast (id : ℕ) (txid : Txid) (amounts : List ℤ)
  | recordSplitConfirmed (id : ℕ)
  | abandonSplit (id : ℕ) (observedTxid : Option Txid)
  | readoptSplit (id : ℕ)
  | setSplitMissingInputs (id : ℕ) (now : ℤ)
  | clearSplitMissingInputs (id : ℕ)

namespace Ledger

/-- The transaction of an operation. -/
def run (l : Ledger) : Op → Except LedgerError Ledger
  | .setting s => return l.applySetting s
  | .configureReserve d balance protectedMinimum =>
    return l.configureReserve d balance protectedMinimum
  | .refreshReserveBalance d observed => return l.refreshReserveBalance d observed
  | .confirmRebalance d delta => return l.confirmRebalance d delta
  | .evaluateLiquidityGate d => return l.evaluateLiquidityGate d
  | .createRequest d a recipient requester sourceWallet ttl now =>
    l.createRequestFrom d a recipient requester sourceWallet ttl now
  | .foldSolDeposit index a requester recipient refusal now =>
    l.foldSolDeposit index a requester recipient refusal now
  | .foldSolDepositToRobinhood index a requester recipientEvm rawDestination routeOpen refusal now =>
    l.foldSolDepositToRobinhood index a requester recipientEvm rawDestination routeOpen refusal now
  | .foldRobinhoodDeposit obs a destination routeOpen refusal now =>
    l.foldRobinhoodDeposit obs a destination routeOpen refusal now
  | .expireReservations now => return l.expireReservations now
  | .cancelRequest id note => l.cancelRequest id note
  | .recordGlcDepositObserved id dep lock now =>
    Prod.snd <$> l.recordGlcDepositObserved id dep lock now
  | .updateGlcConfirmations id confirmations => l.updateGlcConfirmations id confirmations
  | .markGlcSourceFinalized id now => l.markGlcSourceFinalized id now
  | .markGlcDepositSpentBeforeFinalized id => l.markGlcDepositSpentBeforeFinalized id
  | .markGlcReorged id => l.markGlcReorged id
  | .goldcoinRollbackReorg forkHeight => return l.goldcoinRollbackReorg forkHeight
  | .parkForDestinationBounds id => l.parkForDestinationBounds id
  | .parkForForeignContract id => l.parkForForeignContract id
  | .setManualReviewHold id reviewAfter note => l.setManualReviewHold id reviewAfter note
  | .clearManualReviewHold id => l.clearManualReviewHold id
  | .recordOperatorDecision id decision note emergency now =>
    l.recordOperatorDecision id decision note emergency now
  | .resumeManualReview expected id now => l.resumeManualReview expected id now
  | .processHeldManualReview id note now => l.processHeldManualReview id note now
  | .resumeGlcToSolDestinationBound id live => l.resumeGlcToSolDestinationBound id live
  | .closeManualReview id disposition reference note now =>
    l.closeManualReview id disposition reference note now
  | .beginSolanaRefund id verified note => l.beginSolanaRefund id verified note
  | .recordSolanaRefundBroadcast id => l.recordSolanaRefundBroadcast id
  | .markSolanaRefundConfirmed id => l.markSolanaRefundConfirmed id
  | .returnRefundToManualReview id nothingLanded note =>
    l.returnRefundToManualReview id nothingLanded note
  | .beginGoldcoinRefund id observedAmount inputs note =>
    l.beginGoldcoinRefund id observedAmount inputs note
  | .recordGoldcoinRefundSigned id => l.recordGoldcoinRefundSigned id
  | .recordGoldcoinRefundBroadcast id txid => l.recordGoldcoinRefundBroadcast id txid
  | .recordGoldcoinRefundConfirmed id => l.recordGoldcoinRefundConfirmed id
  | .reconcileGoldcoinRefundConfirmations id confirmations required =>
    l.reconcileGoldcoinRefundConfirmations id confirmations required
  | .markRobinhoodRefundPending id => l.markRobinhoodRefundPending id
  | .markRobinhoodRefundConfirmed id => l.markRobinhoodRefundConfirmed id
  | .markRobinhoodRequestManualReview id reason => l.markRobinhoodRequestManualReview id reason
  | .recordReleaseSubmitted id signature => l.recordReleaseSubmitted id signature
  | .recordReleaseAttestation id => l.recordReleaseAttestation id
  | .markReleaseConfirmed id => l.releaseConfirmed id
  | .reconcileReleaseFromChain id => l.reconcileReleaseFromChain id
  | .reserveVaultUtxos id selected depth => l.reserveVaultUtxos id selected depth
  | .buildPayout id plan depth => l.buildPayout id plan depth
  | .recordGoldcoinPayoutSigned id => l.recordGoldcoinPayoutSigned id
  | .recordGoldcoinPayoutBroadcast id txid => l.recordGoldcoinPayoutBroadcast id txid
  | .updateGoldcoinPayoutConfirmations id confirmations requiredDepth =>
    l.updateGoldcoinPayoutConfirmations id confirmations requiredDepth
  | .submitGoldcoinCompletion id signature => l.submitGoldcoinCompletion id signature
  | .markGoldcoinCompletionConfirmed id => l.goldcoinCompletionConfirmed id true
  | .applyCompletionLanded id => l.applyCompletionLanded id
  | .beginRobinhoodTx kind id authDigest => l.beginRobinhoodTx kind id authDigest
  | .recordRobinhoodAuthorization kind id signatures =>
    l.recordRobinhoodAuthorization kind id signatures
  | .recordRobinhoodSigned kind id rawTx => l.recordRobinhoodSigned kind id rawTx
  | .recordRobinhoodBroadcast kind id => l.recordRobinhoodBroadcast kind id
  | .recordRobinhoodReceipt kind id success block => l.recordRobinhoodReceipt kind id success block
  | .updateRobinhoodConfirmations kind id confirmations required now =>
    l.updateRobinhoodConfirmations kind id confirmations required now
  | .markRobinhoodTxManualReview kind id => l.markRobinhoodTxManualReview kind id
  | .markRobinhoodPayoutSettled id => l.markRobinhoodPayoutSettled id
  | .recordRobinhoodPayoutCompletionSubmitted id signature =>
    l.recordRobinhoodPayoutCompletionSubmitted id signature
  | .markRobinhoodPayoutCompletionConfirmed id => l.markRobinhoodPayoutCompletionConfirmed id
  | .markRobinhoodSettlementConfirmed id => l.robinhoodSettleConfirmed id
  | .reconcileRobinhoodSettlementFromChain id block now =>
    l.reconcileRobinhoodSettlementFromChain id block now
  | .syncVaultUtxos observed minConfirmations =>
    l.onVault (.ok (l.vault.sync observed minConfirmations))
  | .setZeroConfHold txid hold => l.onVault (.ok (l.vault.setZeroConfHold txid hold))
  | .recordSplitBuilt source sourceAmount fee chunkCount =>
    l.onVault (l.vault.recordSplitBuilt source sourceAmount fee chunkCount)
  | .recordSplitSigned id => l.onVault (l.vault.recordSplitSigned id)
  | .recordSplitBroadcast id txid amounts =>
    l.onVault (l.vault.recordSplitBroadcast id txid amounts)
  | .recordSplitConfirmed id => l.onVault (l.vault.recordSplitConfirmed id)
  | .abandonSplit id observedTxid => l.onVault (l.vault.abandonSplit id observedTxid)
  | .readoptSplit id => l.onVault (l.vault.readoptSplit id)
  | .setSplitMissingInputs id now => l.onVault (.ok (l.vault.setSplitMissingInputs id now))
  | .clearSplitMissingInputs id => l.onVault (.ok (l.vault.clearSplitMissingInputs id))

/-- One step of a run. A failed transaction is no step. -/
def step (l : Ledger) (op : Op) : Option Ledger := (l.run op).toOption

/-- The ledger before anything was configured. -/
def empty : Ledger where
  requests := .empty
  reserves := fun _ => none
  vault := { utxos := .empty, splits := .empty, changeOutpoints := [] }
  routeAdmissionClosed := fun _ => false
  rapidBurstPolicy := none
  boundContract := none
  retainedCancelEnabled := false

/-- The state after a run from the empty ledger. -/
abbrev after (ops : List Op) : Ledger := Run.final step empty ops

/-! ## A sample deposit -/

/-- A deposit on Robinhood for Solana. -/
def sampleObservation : RobinhoodObservation where
  direction := .rhnToSol
  obligationIndex := 0
  sourceContract := 7
  depositor := [1]
  destination := [2]
  txHash := 9
  logIndex := 0
  blockNumber := 5

def sampleAmounts : RequestAmounts where
  gross := 1000
  feeBps := 0
  fee := 0
  net := 1000
  netDestination := 1000
  quote := none

end Ledger

end Service
