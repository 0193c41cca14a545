-- SUMMARY: Refunds from the ledger's side: of Solana deposits with their return to manual review, of Goldcoin deposits out of the vault, and of Robinhood deposits.
import ReserveBridge.Service.Ledger.Review

/-!
# Refunds

Each chain refunds its own deposits. The refund of a Solana or Goldcoin deposit
has a row of its own, the refund of a Robinhood deposit is an operation on
Robinhood.
-/

namespace Service
open Guard

/-! ## Solana deposits -/

/-- What the caller read off the chain for the refund. -/
structure VerifiedRefundInputs where
  obligationIndex : ℕ
  requester : Bytes
  grossCanonical : ℕ
  amountSolana : ℕ

/-- The states no refundable request has ever been in. -/
def RequestState.isPastManualReview : RequestState → Bool
  | .sourceFinalized | .settlementAuthorized | .destinationSubmitted | .destinationConfirmed
  | .settled => true
  | _ => false

/-- `first_failure_for_begin` finds none, the hold aside. -/
structure SolanaRefundEligible (r : Request) : Prop where
  noRefund : r.solanaRefund = none
  direction : r.direction.sourceIsSolana
  state : r.state = .manualReview
  reason : r.manualReviewNote.any (ParkReason.isRefundable r.direction) = true
  finalized : r.sourceFinalizedAt.isSome
  obligation : r.sourceObligationIndex.isSome
  requester : r.requester.any (·.length = 32) = true
  noDestination : r.destinationTxid = none
  noPayout : r.goldcoinPayout = none ∧ r.robinhoodTx .payout = none
  neverAdvanced : ∀ e ∈ r.stateLog, e.2.isPastManualReview = false

instance (r : Request) : Decidable (SolanaRefundEligible r) :=
  decidable_of_iff (r.solanaRefund = none ∧ r.direction.sourceIsSolana ∧ r.state = .manualReview ∧
      r.manualReviewNote.any (ParkReason.isRefundable r.direction) = true ∧
      r.sourceFinalizedAt.isSome ∧ r.sourceObligationIndex.isSome ∧
      r.requester.any (·.length = 32) = true ∧ r.destinationTxid = none ∧
      (r.goldcoinPayout = none ∧ r.robinhoodTx .payout = none) ∧
      ∀ e ∈ r.stateLog, e.2.isPastManualReview = false)
    ⟨fun ⟨a, b, c, d, e, f, g, h, i, j⟩ => ⟨a, b, c, d, e, f, g, h, i, j⟩,
      fun ⟨a, b, c, d, e, f, g, h, i, j⟩ => ⟨a, b, c, d, e, f, g, h, i, j⟩⟩

namespace Ledger

/-- The amounts of all refunds under way, the one of `id` aside. -/
def otherOpenRefunds (l : Ledger) (id : ℕ) : ℤ :=
  ((l.requests.entries.filter fun e => e.1 ≠ id).map fun e =>
    match e.2.solanaRefund with
    | some f => if f.state = .confirmed then 0 else f.amount
    | none => 0).sum

/-- `evaluate_solana_refund_capacity`. -/
def solanaRefundCapacity (l : Ledger) (v : Reserve) (id : ℕ) (amount : ℕ) : Prop :=
  asI64 amount ≤ asI64 (v.headroom - l.otherOpenRefunds id) ∧ 0 < amount

instance (l : Ledger) (v : Reserve) (id amount : ℕ) : Decidable (l.solanaRefundCapacity v id amount) :=
  inferInstanceAs (Decidable (_ ∧ _))

/-- `begin_solana_refund`. -/
def beginSolanaRefund (l : Ledger) (id : ℕ) (verified : VerifiedRefundInputs) (note : String) :
    Except LedgerError Ledger := do
  require (note ≠ "") .panicked
  let r ← l.request id
  require (SolanaRefundEligible r) (.refundNotEligible id)
  l.refuseUnlessDecided id
  require (r.sourceObligationIndex = some verified.obligationIndex) (.refundNotEligible id)
  require (r.requester = some verified.requester) (.refundNotEligible id)
  require (r.gross % 2 ^ 64 = verified.grossCanonical) (.refundNotEligible id)
  let v ← l.reserve .solanaReserve
  require (l.solanaRefundCapacity v id verified.amountSolana) (.invariantViolated .solanaReserve)
  return l.setRequest id { r.transition .refundPending with
    solanaRefund := some
      { state := .pending
        amount := asI64 verified.amountSolana
        obligationIndex := verified.obligationIndex
        requester := verified.requester
        recorded := false } }

/-- `record_solana_refund_broadcast`. -/
def recordSolanaRefundBroadcast (l : Ledger) (id : ℕ) : Except LedgerError Ledger := do
  let r ← l.request id
  let f ← orFail r.solanaRefund (.refundNotFound id)
  require (f.state ≠ .confirmed) (.refundWrongState id)
  require (r.state = .refundPending ∨ r.state = .refundBroadcast) .panicked
  let recorded := { r with solanaRefund := some { f with state := .broadcast, recorded := true } }
  return l.setRequest id
    (if r.state = .refundPending then recorded.transition .refundBroadcast else recorded)

/-- `mark_solana_refund_confirmed`. -/
def markSolanaRefundConfirmed (l : Ledger) (id : ℕ) : Except LedgerError Ledger := do
  let r ← l.request id
  let f ← orFail r.solanaRefund (.refundNotFound id)
  if f.state = .confirmed then return l
  require (f.state = .broadcast) (.refundWrongState id)
  require (r.state = .refundBroadcast) .panicked
  return (l.setRequest id
      { r.transition .refunded with solanaRefund := some { f with state := .confirmed } })
    |>.updateReserve .solanaReserve fun v =>
      { v with totalReserveBalance := v.totalReserveBalance - f.amount }

/-- `return_refund_to_manual_review`, with the chain's proof that nothing
landed. -/
def returnRefundToManualReview (l : Ledger) (id : ℕ) (nothingLanded : Bool) (note : String) :
    Except LedgerError Ledger := do
  require (note ≠ "") (.manualReviewNotRecoverable id)
  let r ← l.request id
  require (r.state = .refundPending) (.manualReviewNotRecoverable id)
  require r.direction.sourceIsSolana (.manualReviewNotRecoverable id)
  let f ← orFail r.solanaRefund (.manualReviewNotRecoverable id)
  require (f.state = .pending ∧ f.recorded = false) (.manualReviewNotRecoverable id)
  require (r.requester = some f.requester ∧ r.sourceObligationIndex = some f.obligationIndex)
    (.manualReviewNotRecoverable id)
  require (∀ e ∈ r.stateLog, e.2 ≠ .refundBroadcast ∧ e.2 ≠ .refunded)
    (.manualReviewNotRecoverable id)
  require (r.stateLog.getLast? = some (some .manualReview, .refundPending))
    (.manualReviewNotRecoverable id)
  require (r.destinationTxid = none) (.manualReviewNotRecoverable id)
  require (r.goldcoinPayout = none) (.manualReviewNotRecoverable id)
  require (r.robinhoodTx .payout = none ∧ r.robinhoodTx .settlement = none ∧
    r.robinhoodTx .refund = none) (.manualReviewNotRecoverable id)
  require (r.goldcoinRefund = none) (.manualReviewNotRecoverable id)
  require (r.closure = none) (.manualReviewNotRecoverable id)
  require (nothingLanded = true) (.manualReviewNotRecoverable id)
  return l.setRequest id { r.transition .manualReview with solanaRefund := none }

/-! ## Goldcoin deposits -/

/-- The unique index on the inputs of all Goldcoin refunds. -/
def RefundInputTaken (l : Ledger) (o : Outpoint) : Prop :=
  ∃ e ∈ l.requests.entries, ∃ f ∈ e.2.goldcoinRefund, o ∈ f.inputs

instance (l : Ledger) (o : Outpoint) : Decidable (l.RefundInputTaken o) :=
  inferInstanceAs (Decidable (∃ e ∈ l.requests.entries, ∃ f ∈ e.2.goldcoinRefund, o ∈ f.inputs))

end Ledger

namespace Vault

/-- Mark an outpoint reserved by a request. -/
def reserve (v : Vault) (id : ℕ) (o : Outpoint) : Vault :=
  { v with utxos := v.utxos.modify o fun u => { u with state := .reserved, reservedBy := some id } }

/-- `UPDATE vault_utxos SET state = 'Reserved' … AND state = 'Available'`, for
each input in turn. An outpoint listed twice is no longer available. -/
def reserveAvailable (v : Vault) (id : ℕ) : List Outpoint → Except LedgerError Vault
  | [] => .ok v
  | o :: rest => do
    require ((v.utxos.get? o).any (·.state = .available)) (.refundNotEligible id)
    (v.reserve id o).reserveAvailable id rest

/-- `UPDATE vault_utxos SET state = 'Spent'` on the selected outpoints. -/
def markSpent (v : Vault) (selected : Outpoint → VaultUtxo → Bool) (txid : Option Txid) : Vault :=
  { v with utxos := v.utxos.mapValues fun o u =>
      if selected o u then { u with state := .spent, spentBy := txid } else u }

end Vault

namespace Ledger

/-- `begin_goldcoin_refund`. A live split of an input is not looked at. -/
def beginGoldcoinRefund (l : Ledger) (id : ℕ) (observedAmount : ℕ) (inputs : List Outpoint)
    (note : String) : Except LedgerError Ledger := do
  require (note ≠ "") (.refundNotEligible id)
  require (inputs ≠ []) (.refundNotEligible id)
  l.refuseUnlessDecided id
  let r ← l.request id
  require r.direction.sourceIsGoldcoin (.notARoute id)
  require (r.state = .manualReview) (.refundNotEligible id)
  require (r.manualReviewNote.any ParkReason.isGlcRefundable) (.refundNotEligible id)
  require (r.destinationTxid = none) (.refundNotEligible id)
  require (r.robinhoodTx .payout = none ∧ r.robinhoodTx .settlement = none ∧
    r.robinhoodTx .refund = none) (.refundNotEligible id)
  require (r.goldcoinPayout = none) (.refundNotEligible id)
  require (r.goldcoinRefund = none) (.refundLifecycleExists id)
  require (r.sourceTxid.isSome ∧ r.sourceVout.isSome) (.refundNotEligible id)
  require (∀ durable ∈ r.observedAmount, durable % 2 ^ 64 = observedAmount) (.refundNotEligible id)
  require (inputs.Nodup ∧ ∀ o ∈ inputs, ¬ l.RefundInputTaken o) .constraintViolated
  let vault ← l.vault.reserveAvailable id inputs
  return { l with vault := vault }.setRequest id { r.transition .refundPending with
    goldcoinRefund := some
      { state := .built, inputs := inputs, txid := none, reservationReleased := false } }

/-- `record_goldcoin_refund_signed`. -/
def recordGoldcoinRefundSigned (l : Ledger) (id : ℕ) : Except LedgerError Ledger := do
  let r ← l.request id
  let f ← orFail r.goldcoinRefund (.refundNotFound id)
  if f.state = .signed then return l
  require (f.state = .built) (.refundWrongState id)
  return l.setRequest id { r with goldcoinRefund := some { f with state := .signed } }

/-- `record_goldcoin_refund_broadcast`. The state of the request is written,
not read. -/
def recordGoldcoinRefundBroadcast (l : Ledger) (id : ℕ) (txid : Txid) : Except LedgerError Ledger := do
  let r ← l.request id
  let f ← orFail r.goldcoinRefund (.refundNotFound id)
  if let some existing := f.txid then
    require (existing = txid) (.refundNotEligible id)
    return l
  require (f.state = .signed) (.refundWrongState id)
  let vault := l.vault.markSpent (fun o u => o.1 ∈ f.inputs.map Prod.fst ∧
    o.2 ∈ f.inputs.map Prod.snd ∧ u.reservedBy = some id) (some txid)
  return { l with vault := vault }.setRequest id
    { r.transitionFrom .refundPending .refundBroadcast with
      goldcoinRefund := some { f with state := .broadcast, txid := some txid } }

/-- `commit_goldcoin_refund_terminal`. -/
def commitGoldcoinRefundTerminal (l : Ledger) (id : ℕ) (r : Request) (f : GoldcoinRefund) : Ledger :=
  let done := l.setRequest id { r.transitionFrom .refundBroadcast .refunded with
    goldcoinRefund := some { f with state := .refunded, reservationReleased := true } }
  if f.reservationReleased then done
  else done.addReserved r.direction.destinationReserve (-r.netDestination)

/-- `record_goldcoin_refund_confirmed`. -/
def recordGoldcoinRefundConfirmed (l : Ledger) (id : ℕ) : Except LedgerError Ledger := do
  let r ← l.request id
  let f ← orFail r.goldcoinRefund (.refundNotFound id)
  if f.state = .refunded then return l
  require (f.state = .broadcast) (.refundWrongState id)
  return l.commitGoldcoinRefundTerminal id r f

/-- `reconcile_goldcoin_refund_confirmations`. -/
def reconcileGoldcoinRefundConfirmations (l : Ledger) (id : ℕ) (confirmations required : ℤ) :
    Except LedgerError Ledger := do
  let r ← l.request id
  let f ← orFail r.goldcoinRefund (.refundNotFound id)
  if f.state = .refunded then return l
  require (f.state = .broadcast) (.refundWrongState id)
  return if confirmations < required then l else l.commitGoldcoinRefundTerminal id r f

/-! ## Robinhood deposits -/

/-- `mark_robinhood_refund_pending`. -/
def markRobinhoodRefundPending (l : Ledger) (id : ℕ) : Except LedgerError Ledger := do
  let r ← l.request id
  require r.direction.sourceIsRobinhood (.robinhoodTxInvalid id)
  if r.state.isRefundLifecycle then return l
  require (r.state = .manualReview) (.robinhoodTxInvalid id)
  return l.setRequest id (r.transition .refundPending)

/-- `mark_robinhood_refund_confirmed`. -/
def markRobinhoodRefundConfirmed (l : Ledger) (id : ℕ) : Except LedgerError Ledger := do
  let r ← l.request id
  require r.direction.sourceIsRobinhood (.robinhoodTxInvalid id)
  if r.state = .refunded then return l
  require (r.state = .refundPending ∨ r.state = .refundBroadcast) (.robinhoodTxInvalid id)
  return l.setRequest id (r.transition .refunded)

/-- `mark_robinhood_request_manual_review`. -/
def markRobinhoodRequestManualReview (l : Ledger) (id : ℕ) (reason : ParkReason) :
    Except LedgerError Ledger := do
  let r ← l.request id
  if r.state = .settled ∨ r.state = .refunded then return l
  if r.state = .manualReview then return l
  let parked := l.setRequest id
    { r.transition .manualReview with manualReviewNote := some reason }
  return if r.state.isActive then
      parked.addObligation r.direction.destinationReserve (-r.netDestination)
    else parked

end Ledger

end Service
