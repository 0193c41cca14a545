-- SUMMARY: Data model of the service ledger: directions, request states, park reasons, the rows of its tables, and the updates of request and reserve rows.
import ReserveBridge.Lib.Guard
import ReserveBridge.Lib.Store

/-!
# The service ledger: data model

The types of `service/src/ledger/types.rs` and the tables of
`service/src/ledger/schema.rs`. A table with at most one row for each request
(refunds, payouts, operations, closures) is an optional field of the request
row. Columns are integers, and a value of type `u64` is stored as the `i64` of
the same 64 bits. Hashes and addresses that are only compared are numbers.
-/

namespace Service
open Guard

abbrev Bytes := List UInt8
abbrev Txid := ℕ

/-- `x as i64`. -/
def asI64 (x : ℤ) : ℤ := Int.bmod x (2 ^ 64)

theorem asI64_of_lt {x : ℤ} (h₀ : -2 ^ 63 ≤ x) (h : x < 2 ^ 63) : asI64 x = x :=
  Int.bmod_eq_of_le (by omega) (by omega)

/-- Above its lower end, the wrapped value is no greater. -/
theorem asI64_le {x : ℤ} (h : -2 ^ 63 ≤ x) : asI64 x ≤ x := by
  unfold asI64
  rw [Int.bmod_def]
  split_ifs <;> omega

/-- `x as u64`. -/
def asU64 (x : ℤ) : ℕ := (x % 2 ^ 64).toNat

/-! ## Directions -/

inductive Chain
  | goldcoin | solana | robinhood
  deriving DecidableEq, Repr

/-- The reserves, one on each chain. -/
inductive ReserveDirection
  | solanaReserve | goldcoinReserve | robinhoodReserve
  deriving DecidableEq, Repr

inductive Direction
  | glcToSol | solToGlc | glcToRhn | rhnToGlc | solToRhn | rhnToSol
  deriving DecidableEq, Repr

namespace Direction

def sourceChain : Direction → Chain
  | glcToSol | glcToRhn => .goldcoin
  | solToGlc | solToRhn => .solana
  | rhnToGlc | rhnToSol => .robinhood

def destinationChain : Direction → Chain
  | glcToSol | rhnToSol => .solana
  | solToGlc | rhnToGlc => .goldcoin
  | glcToRhn | solToRhn => .robinhood

def sourceIsGoldcoin (d : Direction) : Prop := d.sourceChain = .goldcoin
def sourceIsSolana (d : Direction) : Prop := d.sourceChain = .solana
def sourceIsRobinhood (d : Direction) : Prop := d.sourceChain = .robinhood
def destinationIsGoldcoin (d : Direction) : Prop := d.destinationChain = .goldcoin
def destinationIsSolana (d : Direction) : Prop := d.destinationChain = .solana
def destinationIsRobinhood (d : Direction) : Prop := d.destinationChain = .robinhood

instance (d : Direction) : Decidable d.sourceIsGoldcoin := inferInstanceAs (Decidable (_ = _))
instance (d : Direction) : Decidable d.sourceIsSolana := inferInstanceAs (Decidable (_ = _))
instance (d : Direction) : Decidable d.sourceIsRobinhood := inferInstanceAs (Decidable (_ = _))
instance (d : Direction) : Decidable d.destinationIsGoldcoin := inferInstanceAs (Decidable (_ = _))
instance (d : Direction) : Decidable d.destinationIsSolana := inferInstanceAs (Decidable (_ = _))
instance (d : Direction) : Decidable d.destinationIsRobinhood :=
  inferInstanceAs (Decidable (_ = _))

def destinationReserve (d : Direction) : ReserveDirection :=
  match d.destinationChain with
  | .goldcoin => .goldcoinReserve
  | .solana => .solanaReserve
  | .robinhood => .robinhoodReserve

/-- The reserve the fee stays on. -/
def sourceReserve (d : Direction) : ReserveDirection :=
  match d.sourceChain with
  | .goldcoin => .goldcoinReserve
  | .solana => .solanaReserve
  | .robinhood => .robinhoodReserve

def settlesOnRelease (d : Direction) : Prop := d = .glcToSol
def settlesOnPayout (d : Direction) : Prop := d = .glcToRhn

instance (d : Direction) : Decidable d.settlesOnRelease := inferInstanceAs (Decidable (_ = _))
instance (d : Direction) : Decidable d.settlesOnPayout := inferInstanceAs (Decidable (_ = _))

/-- Whether the book of the destination reserve is debited as soon as the
destination leg is final. The Goldcoin-bound routes are debited at `settled`. -/
def destinationDebitedAtDestinationConfirmed (d : Direction) : Prop := ¬ d.destinationIsGoldcoin

instance (d : Direction) : Decidable d.destinationDebitedAtDestinationConfirmed :=
  inferInstanceAs (Decidable (¬ _))

end Direction

/-! ## Request states -/

inductive RequestState
  | liquidityReserved | awaitingDeposit | depositObserved | confirming | sourceFinalized
  | settlementAuthorized | destinationSubmitted | destinationConfirmed | settled
  | expired | cancelled | reorged | insufficientReserveAtSettlement
  | destinationSubmissionFailed | manualReview | failed
  | refundPending | refundBroadcast | refunded | closed
  deriving DecidableEq, Repr

namespace RequestState

def isTerminal : RequestState → Bool
  | settled | refunded | closed => true
  | _ => false

def isRefundLifecycle : RequestState → Bool
  | refundPending | refundBroadcast | refunded => true
  | _ => false

def isActive : RequestState → Bool
  | liquidityReserved | awaitingDeposit | depositObserved | confirming | sourceFinalized
  | settlementAuthorized | destinationSubmitted => true
  | _ => false

/-- `RATE_LIMIT_EXCLUDED_STATES_SQL_IN`. -/
def isRateLimitExcluded : RequestState → Bool
  | failed | destinationSubmissionFailed | insufficientReserveAtSettlement
  | cancelled | expired | reorged => true
  | _ => false

end RequestState

/-! ## Operations on Robinhood -/

inductive RobinhoodTxKind
  | payout | settlement | refund
  deriving DecidableEq, Repr

inductive RobinhoodTxState
  | authorizing | authorized | signed | broadcast | included | finalized | reverted | manualReview
  deriving DecidableEq, Repr

/-- A row of `robinhood_transactions` that names a bridge request. -/
structure RobinhoodTx where
  state : RobinhoodTxState
  authDigest : ℕ
  /-- Signer and signature, in the order recorded. -/
  signatures : List (ℕ × ℕ)
  /-- The signed transaction. -/
  rawTx : Option ℕ
  receiptBlock : Option ℕ
  finalizedAt : Option ℤ
  /-- `onchain_completion_signature`. -/
  completionSignature : Option ℕ
  deriving DecidableEq

/-! ## Why a request is parked -/

/-- The values of `manual_review_note`. -/
inductive ParkReason
  | routeAdmissionClosed | admissionClosed | paused | insufficientCapacity | utxoLiquidityLow
  | liquidityBufferLow | routeDisabled | undeliverableDestination
  | walletSourceLimit | walletDestinationLimit
  | legacyRecipientRateLimited | legacySourceWalletRateLimited
  | rapidBurstHold
  | feedUnavailable | feedStale | warmingUp | bandExceeded | insufficientCapacityAtLock
  | depositAmountMismatch (expected observed : ℤ)
  | lateDepositNoCapacity | depositSpentBeforeFinalized
  | destinationPayoutOutOfBounds | foreignContract
  /-- `its {kind} transaction reverted on Robinhood`. -/
  | reverted (kind : RobinhoodTxKind)
  | other (text : String)
  deriving DecidableEq

namespace ParkReason

/-- `RECOVERABLE_MANUAL_REVIEW_REASONS`. -/
def isRecoverable : ParkReason → Bool
  | bandExceeded | admissionClosed | routeAdmissionClosed | paused | insufficientCapacity
  | utxoLiquidityLow | liquidityBufferLow | walletSourceLimit | walletDestinationLimit
  | legacyRecipientRateLimited | legacySourceWalletRateLimited | rapidBurstHold => true
  | _ => false

/-- `BRIDGE_RATE_MANUAL_REVIEW_REASONS`. -/
def isBridgeRate : ParkReason → Bool
  | feedUnavailable | feedStale | warmingUp | bandExceeded | insufficientCapacityAtLock => true
  | _ => false

/-- `is_refundable_manual_review_reason`: what a Solana refund may act on. -/
def isRefundable (d : Direction) : ParkReason → Bool
  | feedUnavailable | feedStale | warmingUp | bandExceeded | destinationPayoutOutOfBounds
  | admissionClosed | routeAdmissionClosed | paused | insufficientCapacity | utxoLiquidityLow
  | liquidityBufferLow | walletSourceLimit | walletDestinationLimit
  | legacyRecipientRateLimited | legacySourceWalletRateLimited | rapidBurstHold => true
  | routeDisabled | undeliverableDestination => d = .solToRhn
  | _ => false

/-- `REFUNDABLE_GLC_MANUAL_REVIEW_REASONS`. -/
def isGlcRefundable : ParkReason → Bool
  | depositAmountMismatch _ _ | feedUnavailable | feedStale | warmingUp | bandExceeded
  | insufficientCapacityAtLock | destinationPayoutOutOfBounds
  | walletSourceLimit | walletDestinationLimit => true
  | _ => false

end ParkReason

/-! ### Refusals -/

/-- No rate to strike a quote at. -/
inductive RateRefusal
  | feedUnavailable | feedStale | warmingUp
  deriving DecidableEq, Repr

def RateRefusal.reason : RateRefusal → ParkReason
  | feedUnavailable => .feedUnavailable
  | feedStale => .feedStale
  | warmingUp => .warmingUp

/-- What a caller may refuse a final deposit for. -/
inductive FoldRefusal
  | rate (refusal : RateRefusal)
  | bandExceeded | destinationPayoutOutOfBounds
  /-- A limit of the source, or an amount or a recipient that cannot be paid. -/
  | other (text : String)
  deriving DecidableEq, Repr

def FoldRefusal.reason : FoldRefusal → ParkReason
  | rate refusal => refusal.reason
  | bandExceeded => .bandExceeded
  | destinationPayoutOutOfBounds => .destinationPayoutOutOfBounds
  | other text => .other text

/-! ## Dispositions -/

inductive ManualReviewDisposition
  | normal | operatorHold | rapidBurstHold
  deriving DecidableEq, Repr

inductive OperatorDecision
  | process | refund | release
  deriving DecidableEq, Repr

inductive ClosureDisposition
  | refundedOutOfBand | retainedPerTerms | reconciledToChain
  deriving DecidableEq, Repr

/-! ## Refunds and payouts -/

inductive SolanaRefundState
  | pending | broadcast | confirmed
  deriving DecidableEq, Repr

/-- A row of `solana_refunds`. -/
structure SolanaRefund where
  state : SolanaRefundState
  amount : ℤ
  obligationIndex : ℕ
  requester : Bytes
  /-- `refund_signature`, `recent_blockhash` or `broadcast_at` is set. -/
  recorded : Bool
  deriving DecidableEq

/-- `(txid, vout)`. -/
abbrev Outpoint := Txid × ℕ

inductive GoldcoinRefundState
  | built | signed | broadcast | refunded
  deriving DecidableEq, Repr

/-- A row of `goldcoin_refunds` with its `goldcoin_refund_inputs`. -/
structure GoldcoinRefund where
  state : GoldcoinRefundState
  inputs : List Outpoint
  txid : Option Txid
  reservationReleased : Bool
  deriving DecidableEq

inductive GoldcoinPayoutState
  | built | signed | broadcast | confirmed | completed
  deriving DecidableEq, Repr

/-- A row of `goldcoin_payouts` with its `goldcoin_payout_inputs` and
`goldcoin_payout_change_outputs`. -/
structure GoldcoinPayout where
  state : GoldcoinPayoutState
  payout : ℤ
  change : ℤ
  fee : ℤ
  inputs : List Outpoint
  changeOutputs : List ℤ
  txid : Option Txid
  confirmations : ℤ
  /-- `onchain_completion_signature`. -/
  completionSignature : Option ℕ
  deriving DecidableEq

/-! ## Request rows -/

/-- A row of `bridge_requests`, with the rows other tables keep for it. -/
structure Request where
  direction : Direction
  state : RequestState
  gross : ℤ
  feeBps : ℤ
  feeAmount : ℤ
  netAmount : ℤ
  netDestination : ℤ
  recipient : Bytes
  requester : Option Bytes
  sourceWallet : Option Bytes
  createdAt : ℤ
  reservationExpiresAt : Option ℤ
  sourceTxid : Option Txid
  sourceVout : Option ℕ
  sourceBlockHeight : Option ℤ
  sourceBlockHash : Option ℕ
  sourceConfirmations : ℤ
  sourceFinalizedAt : Option ℤ
  sourceContract : Option ℕ
  sourceObligationIndex : Option ℕ
  destinationTxid : Option ℕ
  manualReviewNote : Option ParkReason
  observedAmount : Option ℤ
  /-- `quote_source_price_e12 IS NOT NULL`. -/
  quoted : Bool
  quoteLockedAt : Option ℤ
  disposition : ManualReviewDisposition
  /-- `auto_resume_hold_note IS NOT NULL`. -/
  holdNote : Bool
  operatorDecision : Option OperatorDecision
  reviewAfter : Option ℤ
  /-- `bridge_request_state_log`: from and to, oldest first. -/
  stateLog : List (Option RequestState × RequestState)
  solanaRefund : Option SolanaRefund
  goldcoinRefund : Option GoldcoinRefund
  goldcoinPayout : Option GoldcoinPayout
  robinhoodTx : RobinhoodTxKind → Option RobinhoodTx
  /-- An `attestation_records` row of action type `release`. -/
  releaseAttested : Bool
  /-- The disposition of the `request_closures` row. -/
  closure : Option ClosureDisposition

namespace Request

/-- `UPDATE bridge_requests SET state` with its `log_transition`. -/
def transition (r : Request) (next : RequestState) : Request :=
  { r with state := next, stateLog := r.stateLog ++ [(some r.state, next)] }

/-- The same, with the state the log has it leave given by the caller. -/
def transitionFrom (r : Request) (prior next : RequestState) : Request :=
  { r with state := next, stateLog := r.stateLog ++ [(some prior, next)] }

@[simp] theorem state_transition (r : Request) (next : RequestState) :
    (r.transition next).state = next := rfl

@[simp] theorem direction_transition (r : Request) (next : RequestState) :
    (r.transition next).direction = r.direction := rfl

@[simp] theorem netDestination_transition (r : Request) (next : RequestState) :
    (r.transition next).netDestination = r.netDestination := rfl

@[simp] theorem manualReviewNote_transition (r : Request) (next : RequestState) :
    (r.transition next).manualReviewNote = r.manualReviewNote := rfl

/-- `is_held`. -/
def isHeld (r : Request) : Prop :=
  (r.holdNote = true ∨ r.disposition ≠ .normal) ∧ r.operatorDecision = none

instance (r : Request) : Decidable r.isHeld := inferInstanceAs (Decidable (_ ∧ _))

/-- `review_available`. -/
def reviewAvailable (r : Request) (now : ℤ) : Prop := ∀ t ∈ r.reviewAfter, t ≤ now

instance (r : Request) (now : ℤ) : Decidable (r.reviewAvailable now) :=
  match h : r.reviewAfter with
  | none => isTrue (by simp [reviewAvailable, h])
  | some t => decidable_of_iff (t ≤ now) (by simp [reviewAvailable, h])

/-- `refund_lifecycle_exists_in`. -/
def refundLifecycleExists (r : Request) : Prop :=
  r.solanaRefund.isSome ∨ r.goldcoinRefund.isSome ∨ (r.robinhoodTx .refund).isSome

instance (r : Request) : Decidable r.refundLifecycleExists :=
  inferInstanceAs (Decidable (_ ∨ _ ∨ _))

def setRobinhoodTx (r : Request) (kind : RobinhoodTxKind) (t : RobinhoodTx) : Request :=
  { r with robinhoodTx := fun k => if k = kind then some t else r.robinhoodTx k }

end Request

/-! ## Reserve rows -/

/-- A row of `reserve_ledger`. -/
structure Reserve where
  totalReserveBalance : ℤ
  protectedMinimum : ℤ
  reservedLiquidity : ℤ
  pendingObligations : ℤ
  settledLiquidityTotal : ℤ
  accruedFees : ℤ
  paused : Bool
  admissionClosed : Bool
  admissionBuffer : ℤ
  admissionReopen : ℤ
  liquidityAdmissionClosed : Bool
  utxoPoolMinAvailableCount : ℤ
  deriving DecidableEq

/-- The amounts of a reserve row. The gates aside, this is what a row accounts
for. -/
structure Reserve.Amounts where
  totalReserveBalance : ℤ
  protectedMinimum : ℤ
  reservedLiquidity : ℤ
  pendingObligations : ℤ
  settledLiquidityTotal : ℤ
  accruedFees : ℤ
  deriving DecidableEq

def Reserve.amounts (v : Reserve) : Reserve.Amounts where
  totalReserveBalance := v.totalReserveBalance
  protectedMinimum := v.protectedMinimum
  reservedLiquidity := v.reservedLiquidity
  pendingObligations := v.pendingObligations
  settledLiquidityTotal := v.settledLiquidityTotal
  accruedFees := v.accruedFees

/-! ## The vault -/

inductive VaultUtxoState
  | available | reserved | spent | unconfirmed
  deriving DecidableEq, Repr

/-- A row of `vault_utxos`. -/
structure VaultUtxo where
  amount : ℤ
  confirmations : ℤ
  state : VaultUtxoState
  reservedBy : Option ℕ
  spentBy : Option Txid
  /-- `zero_conf_hold_reason IS NOT NULL`. -/
  zeroConfHold : Bool
  deriving DecidableEq

inductive SplitState
  | built | signed | broadcast | confirmed | abandoned
  deriving DecidableEq, Repr

/-- `state IN ('Built','Signed','Broadcast')`. -/
def SplitState.isLive : SplitState → Bool
  | built | signed | broadcast => true
  | _ => false

/-- A row of `vault_utxo_splits`. -/
structure Split where
  source : Outpoint
  sourceAmount : ℤ
  fee : ℤ
  chunkCount : ℕ
  state : SplitState
  /-- `signed_tx_hex IS NOT NULL`. -/
  signed : Bool
  txid : Option Txid
  missingInputsSince : Option ℤ
  deriving DecidableEq

/-- A row of `goldcoin_payout_change_outpoints`. -/
structure ChangeOutpoint where
  outpoint : Outpoint
  requestId : ℕ
  amount : ℤ
  depth : ℤ
  deriving DecidableEq

structure Vault where
  utxos : Store Outpoint VaultUtxo
  splits : Store ℕ Split
  changeOutpoints : List ChangeOutpoint

/-- `live_split_claim_exclusion`, unnegated. -/
def Vault.LiveSplitClaim (v : Vault) (o : Outpoint) : Prop :=
  ∃ s ∈ v.splits.entries, s.2.source = o ∧ s.2.state.isLive = true

instance (v : Vault) (o : Outpoint) : Decidable (v.LiveSplitClaim o) :=
  inferInstanceAs (Decidable (∃ s ∈ v.splits.entries, _))

/-! ## The ledger -/

/-- The `rapid_burst_policy` row. -/
structure RapidBurstPolicy where
  enabled : Bool
  windowSecs : ℤ
  maxPerSourceWallet : ℕ
  maxPerDestinationWallet : ℕ
  maxPerPair : ℕ
  minimumReviewHoldSecs : ℤ
  capSizedMin : ℤ
  maxCapSizedPerWindow : ℕ

structure Ledger where
  requests : Store ℕ Request
  /-- A reserve has no row until it is configured. -/
  reserves : ReserveDirection → Option Reserve
  vault : Vault
  routeAdmissionClosed : Direction → Bool
  rapidBurstPolicy : Option RapidBurstPolicy
  /-- `robinhood_bound_contract`. -/
  boundContract : Option ℕ
  retainedCancelEnabled : Bool

inductive LedgerError
  | requestNotFound (id : ℕ) | reserveNotInitialized (d : ReserveDirection)
  | bridgeQuote | constraintViolated
  | notARoute (id : ℕ) | manualReviewNotRecoverable (id : ℕ) | refundLifecycleExists (id : ℕ)
  | walletWindowActive (id : ℕ) | utxoLiquidityLow (id : ℕ)
  | invariantViolated (d : ReserveDirection) | admissionLiquidityBufferLow (id : ℕ)
  | refundNotEligible (id : ℕ) | refundNotFound (id : ℕ) | refundWrongState (id : ℕ)
  | payoutAlreadyExists (id : ℕ) | payoutNotFound (id : ℕ) | completionNotSubmitted (id : ℕ)
  | robinhoodTxInvalid (id : ℕ)
  | vaultUtxoUnavailable | vaultUtxoAlreadySplit | vaultUtxoNotFound | vaultUtxoNotSplittable
  | vaultUtxoSplitNotFound | vaultUtxoSplitNotRecoverable
  /-- A failed assertion: the transaction is dropped and rolls back. -/
  | panicked
  deriving DecidableEq, Repr

namespace Ledger

/-- `SELECT … FROM bridge_requests WHERE id`. -/
def request (l : Ledger) (id : ℕ) : Except LedgerError Request :=
  orFail (l.requests.get? id) (.requestNotFound id)

@[simp] theorem request_eq_ok {l : Ledger} {id : ℕ} {r : Request} :
    l.request id = .ok r ↔ l.requests.get? id = some r := orFail_eq_ok

/-- `SELECT … FROM reserve_ledger WHERE direction`. -/
def reserve (l : Ledger) (d : ReserveDirection) : Except LedgerError Reserve :=
  orFail (l.reserves d) (.reserveNotInitialized d)

@[simp] theorem reserve_eq_ok {l : Ledger} {d : ReserveDirection} {v : Reserve} :
    l.reserve d = .ok v ↔ l.reserves d = some v := orFail_eq_ok

/-- `UPDATE bridge_requests … WHERE id`. -/
def setRequest (l : Ledger) (id : ℕ) (r : Request) : Ledger :=
  { l with requests := l.requests.modify id fun _ => r }

/-- `INSERT INTO bridge_requests`. -/
def insertRequest (l : Ledger) (r : Request) : Ledger :=
  { l with requests := l.requests.push r }

/-- `UPDATE reserve_ledger … WHERE direction`: nothing when there is no row. -/
def updateReserve (l : Ledger) (d : ReserveDirection) (f : Reserve → Reserve) : Ledger :=
  { l with reserves := fun e => if e = d then (l.reserves d).map f else l.reserves e }

/-! ### The updates of the reserve row -/

def addReserved (l : Ledger) (d : ReserveDirection) (n : ℤ) : Ledger :=
  l.updateReserve d fun v => { v with reservedLiquidity := v.reservedLiquidity + n }

def addPending (l : Ledger) (d : ReserveDirection) (n : ℤ) : Ledger :=
  l.updateReserve d fun v => { v with pendingObligations := v.pendingObligations + n }

/-- `reserved_liquidity` and `pending_obligations` together. -/
def addObligation (l : Ledger) (d : ReserveDirection) (n : ℤ) : Ledger :=
  l.updateReserve d fun v => { v with
    reservedLiquidity := v.reservedLiquidity + n
    pendingObligations := v.pendingObligations + n }

/-- The debit of a settlement that is final. -/
def settle (l : Ledger) (d : ReserveDirection) (n : ℤ) : Ledger :=
  l.updateReserve d fun v => { v with
    reservedLiquidity := v.reservedLiquidity - n
    pendingObligations := v.pendingObligations - n
    settledLiquidityTotal := v.settledLiquidityTotal + n
    totalReserveBalance := v.totalReserveBalance - n }

def accrueFee (l : Ledger) (d : ReserveDirection) (fee : ℤ) : Ledger :=
  l.updateReserve d fun v => { v with accruedFees := v.accruedFees + fee }

section Lemmas

variable {l : Ledger} {d e : ReserveDirection} {n : ℤ} {f : Reserve → Reserve} {id : ℕ} {r : Request}

@[simp] theorem requests_setRequest :
    (l.setRequest id r).requests = l.requests.modify id fun _ => r := rfl
@[simp] theorem reserves_setRequest : (l.setRequest id r).reserves = l.reserves := rfl
@[simp] theorem vault_setRequest : (l.setRequest id r).vault = l.vault := rfl
@[simp] theorem requests_insertRequest : (l.insertRequest r).requests = l.requests.push r := rfl
@[simp] theorem reserves_insertRequest : (l.insertRequest r).reserves = l.reserves := rfl
@[simp] theorem requests_updateReserve : (l.updateReserve d f).requests = l.requests := rfl
@[simp] theorem vault_updateReserve : (l.updateReserve d f).vault = l.vault := rfl
@[simp] theorem reserves_updateReserve :
    (l.updateReserve d f).reserves e = if e = d then (l.reserves d).map f else l.reserves e := rfl
@[simp] theorem requests_addReserved : (l.addReserved d n).requests = l.requests := rfl
@[simp] theorem requests_addPending : (l.addPending d n).requests = l.requests := rfl
@[simp] theorem requests_addObligation : (l.addObligation d n).requests = l.requests := rfl
@[simp] theorem requests_settle : (l.settle d n).requests = l.requests := rfl
@[simp] theorem requests_accrueFee : (l.accrueFee d n).requests = l.requests := rfl

/-- The request under another number is untouched. -/
theorem get?_setRequest (h : l.requests.get? id = some r) (r' : Request) (k : ℕ) :
    (l.setRequest id r').requests.get? k = if k = id then some r' else l.requests.get? k := by
  rw [requests_setRequest, Store.get?_modify]
  split_ifs with hk
  · simp [hk, h]
  · rfl

/-- A row that is there stays there. -/
theorem isSome_updateReserve : ((l.updateReserve d f).reserves e).isSome = (l.reserves e).isSome := by
  rw [reserves_updateReserve]
  split_ifs with h
  · simp [h]
  · rfl

end Lemmas

end Ledger

end Service
