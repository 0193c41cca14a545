-- SUMMARY: Manual review: parking a finalized request, the holds and decisions on a parked one, its resumption, and its closure.
import ReserveBridge.Service.Ledger.Goldcoin

/-!
# Manual review

A request that cannot go on is parked in `manualReview`. It leaves through a
resumption, which runs its admission again, through a refund, or through a
closure.
-/

namespace Service
open Guard

/-- Leave `manualReview` for `manualReview`, as the log has it. -/
def Request.noteReview (r : Request) : Request :=
  { r with stateLog := r.stateLog ++ [(some .manualReview, .manualReview)] }

namespace Ledger

/-! ## Parking -/

/-- `park_for_destination_bounds`. A Goldcoin-sourced row keeps its reservation. -/
def parkForDestinationBounds (l : Ledger) (id : ℕ) : Except LedgerError Ledger := do
  let r ← l.request id
  if r.state ≠ .sourceFinalized then return l
  let parked := l.setRequest id
    { r.transition .manualReview with manualReviewNote := some .destinationPayoutOutOfBounds }
  return if r.direction.sourceIsGoldcoin then parked
    else parked.addObligation r.direction.destinationReserve (-r.netDestination)

/-- `park_for_foreign_contract`. The row keeps its reservation. -/
def parkForForeignContract (l : Ledger) (id : ℕ) : Except LedgerError Ledger := do
  let r ← l.request id
  if ¬ r.direction.sourceIsRobinhood ∨ r.state ≠ .sourceFinalized then return l
  return l.setRequest id
    { r.transition .manualReview with manualReviewNote := some .foreignContract }

/-! ## What a parked row may be refused for -/

/-- `refuse_if_auto_resume_held`. -/
def refuseIfAutoResumeHeld (l : Ledger) (id : ℕ) : Except LedgerError Unit :=
  match l.requests.get? id with
  | none => return
  | some r => do
    require (¬ (r.disposition = .rapidBurstHold ∧ r.operatorDecision = none))
      (.manualReviewNotRecoverable id)
    require (r.holdNote = false) (.manualReviewNotRecoverable id)
    require (¬ (r.disposition ≠ .normal ∧ r.operatorDecision = none))
      (.manualReviewNotRecoverable id)

/-- `refuse_if_foreign_contract`. -/
def refuseIfForeignContract (l : Ledger) (id : ℕ) : Except LedgerError Unit :=
  match l.boundContract, l.requests.get? id with
  | some bound, some r =>
    require (r.direction.sourceIsRobinhood → r.sourceContract = some bound)
      (.manualReviewNotRecoverable id)
  | _, _ => return

/-- `refuse_unless_quote_locked_in`. -/
def refuseUnlessQuoteLocked (id : ℕ) (r : Request) : Except LedgerError Unit := do
  require (∀ note ∈ r.manualReviewNote, note.isBridgeRate = true → note = .bandExceeded)
    (.manualReviewNotRecoverable id)
  require (r.quoted = true → r.quoteLockedAt.isSome) (.manualReviewNotRecoverable id)
  require (r.manualReviewNote = some .bandExceeded → r.quoted = true)
    (.manualReviewNotRecoverable id)

/-- `refuse_unless_holdable`. -/
def refuseUnlessHoldable (l : Ledger) (id : ℕ) : Except LedgerError Request := do
  let r ← l.request id
  require (r.state = .manualReview) (.manualReviewNotRecoverable id)
  require (r.destinationTxid = none) (.manualReviewNotRecoverable id)
  require (r.goldcoinPayout = none ∧ r.robinhoodTx .payout = none ∧
    r.robinhoodTx .settlement = none) (.manualReviewNotRecoverable id)
  return r

/-- `refuse_unless_decided`: a held row is refunded only by decision. -/
def refuseUnlessDecided (l : Ledger) (id : ℕ) : Except LedgerError Unit :=
  match l.requests.get? id with
  | none => return
  | some r =>
    require (r.holdNote = true ∨ r.disposition ≠ .normal → r.operatorDecision = some .refund)
      (.refundNotEligible id)

/-! ## Holds and decisions -/

/-- `set_manual_review_hold`. The note is the trimmed one. -/
def setManualReviewHold (l : Ledger) (id : ℕ) (reviewAfter : Option ℤ) (note : String) :
    Except LedgerError Ledger := do
  require (note ≠ "") (.manualReviewNotRecoverable id)
  let r ← l.refuseUnlessHoldable id
  require (r.disposition ≠ .rapidBurstHold) (.manualReviewNotRecoverable id)
  return l.setRequest id { r.noteReview with
    holdNote := true
    disposition := .operatorHold
    reviewAfter := reviewAfter
    operatorDecision := none }

/-- `clear_manual_review_hold`. The state is not looked at. -/
def clearManualReviewHold (l : Ledger) (id : ℕ) : Except LedgerError Ledger := do
  let r ← l.request id
  require (r.disposition ≠ .rapidBurstHold) (.manualReviewNotRecoverable id)
  if r.holdNote = false ∧ r.disposition = .normal then return l
  return l.setRequest id { r.noteReview with
    holdNote := false
    disposition := .normal
    operatorDecision := some .release }

/-- `record_operator_decision`. -/
def recordOperatorDecision (l : Ledger) (id : ℕ) (decision : OperatorDecision) (note : String)
    (emergency : Bool) (now : ℤ) : Except LedgerError Ledger := do
  require (note ≠ "") (.manualReviewNotRecoverable id)
  require (decision ≠ .release) (.manualReviewNotRecoverable id)
  require (emergency = true → decision = .refund) (.manualReviewNotRecoverable id)
  let r ← l.refuseUnlessHoldable id
  require r.isHeld (.manualReviewNotRecoverable id)
  require (¬ r.refundLifecycleExists) (.manualReviewNotRecoverable id)
  require (r.disposition = .rapidBurstHold → emergency = false → r.reviewAvailable now)
    (.manualReviewNotRecoverable id)
  return l.setRequest id { r.noteReview with
    operatorDecision := some decision
    holdNote := if decision = .process then false else r.holdNote }

/-! ## Resumption -/

/-- `resume_wallet_windows`: against the strict predecessors of the row only. -/
def resumeWalletWindows (l : Ledger) (id : ℕ) (r : Request) (sourceWallet : Bytes) (now : ℤ) :
    Except LedgerError Unit := do
  let scope := WalletWindowScope.strictPredecessorOf r.createdAt id
  require (l.walletWindowRetryAfter r.direction.sourceChain .source sourceWallet now scope = none)
    (.walletWindowActive id)
  require (l.walletWindowRetryAfter r.direction.destinationChain .destination r.recipient now
    scope = none) (.walletWindowActive id)

/-- The source wallet, when one is recorded. -/
def knownSourceWallet (id : ℕ) (r : Request) : Except LedgerError Bytes :=
  orFail (r.sourceWallet.filter (· ≠ [])) (.manualReviewNotRecoverable id)

/-- Whether the log has the row leave `manualReview` for `sourceFinalized`. -/
def PreviouslyResumed (r : Request) : Prop := (some .manualReview, .sourceFinalized) ∈ r.stateLog

instance (r : Request) : Decidable (PreviouslyResumed r) := inferInstanceAs (Decidable (_ ∈ _))

/-- `resume_manual_review_inbound`, of a route into Goldcoin. -/
def resumeManualReviewInbound (l : Ledger) (expected : Direction) (id : ℕ) (now : ℤ) :
    Except LedgerError Ledger := do
  l.refuseIfAutoResumeHeld id
  l.refuseIfForeignContract id
  let r ← l.request id
  require (r.direction = expected) (.notARoute id)
  require (if expected = .rhnToGlc then r.robinhoodTx .refund = none else r.solanaRefund = none)
    (.refundLifecycleExists id)
  let sourceWallet ← knownSourceWallet id r
  if r.state ≠ .manualReview then
    require (PreviouslyResumed r) (.manualReviewNotRecoverable id)
    return l
  require (r.manualReviewNote.any ParkReason.isRecoverable) (.manualReviewNotRecoverable id)
  refuseUnlessQuoteLocked id r
  require r.sourceFinalizedAt.isSome (.manualReviewNotRecoverable id)
  require (r.destinationTxid = none) (.manualReviewNotRecoverable id)
  require (r.goldcoinPayout = none) (.manualReviewNotRecoverable id)
  l.resumeWalletWindows id r sourceWallet now
  let v ← l.reserve .goldcoinReserve
  require (v.utxoPoolMinAvailableCount = 0 ∨
    v.utxoPoolMinAvailableCount < l.countAvailableVaultUtxos) (.utxoLiquidityLow id)
  require (r.netDestination ≤ v.headroom) (.invariantViolated .goldcoinReserve)
  require (0 < v.admissionBuffer → v.admissionBuffer ≤ asI64 (v.headroom - r.netDestination))
    (.admissionLiquidityBufferLow id)
  return (l.setRequest id { r.transition .sourceFinalized with manualReviewNote := none })
    |>.addObligation .goldcoinReserve r.netDestination

/-- `resume_manual_review_cross_route`, between Solana and Robinhood. The note
stays. -/
def resumeManualReviewCrossRoute (l : Ledger) (expected : Direction) (id : ℕ) (now : ℤ) :
    Except LedgerError Ledger := do
  l.refuseIfAutoResumeHeld id
  l.refuseIfForeignContract id
  let r ← l.request id
  require (r.direction = expected) (.manualReviewNotRecoverable id)
  let sourceWallet ← knownSourceWallet id r
  require (if r.direction.sourceIsRobinhood then r.robinhoodTx .refund = none
    else r.solanaRefund = none) (.refundLifecycleExists id)
  if r.state ≠ .manualReview then
    require (PreviouslyResumed r) (.manualReviewNotRecoverable id)
    return l
  require (r.manualReviewNote.any ParkReason.isRecoverable) (.manualReviewNotRecoverable id)
  refuseUnlessQuoteLocked id r
  require r.sourceFinalizedAt.isSome (.manualReviewNotRecoverable id)
  require (r.destinationTxid = none ∧ r.robinhoodTx .payout = none) (.manualReviewNotRecoverable id)
  require (0 < r.netDestination) (.manualReviewNotRecoverable id)
  l.resumeWalletWindows id r sourceWallet now
  let reserve := r.direction.destinationReserve
  let v ← l.reserve reserve
  require (r.netDestination ≤ v.headroom) (.invariantViolated reserve)
  require (0 < v.admissionBuffer → v.admissionBuffer ≤ asI64 (v.headroom - r.netDestination))
    (.admissionLiquidityBufferLow id)
  return ((l.evaluateLiquidityGate reserve).setRequest id (r.transition .sourceFinalized))
    |>.addObligation reserve r.netDestination

/-- The resumption of a route, as the callers dispatch it. A Goldcoin-sourced
row has none. -/
def resumeManualReview (l : Ledger) (expected : Direction) (id : ℕ) (now : ℤ) :
    Except LedgerError Ledger :=
  match expected with
  | .solToGlc | .rhnToGlc => l.resumeManualReviewInbound expected id now
  | .solToRhn | .rhnToSol => l.resumeManualReviewCrossRoute expected id now
  | .glcToSol | .glcToRhn => .error (.manualReviewNotRecoverable id)

/-- `process_held_manual_review`: the decision and the resumption, or neither. -/
def processHeldManualReview (l : Ledger) (id : ℕ) (note : String) (now : ℤ) :
    Except LedgerError Ledger := do
  let decided ← l.recordOperatorDecision id .process note false now
  let before ← l.request id
  decided.resumeManualReview before.direction id now

end Ledger

/-- The live bounds of the Solana program, with what the locked quote of a
request pays at the precision of the mint. -/
structure LiveSolanaBounds where
  minTransferAmount : ℕ
  perTransferLimit : ℕ
  /-- `verify_breakdown` and `to_solana`. -/
  lockedPayout : Request → Option ℕ

namespace Ledger

/-- `resume_glc_to_sol_destination_bound`. The reservation is still held, so
nothing is added. -/
def resumeGlcToSolDestinationBound (l : Ledger) (id : ℕ) (live : LiveSolanaBounds) :
    Except LedgerError Ledger := do
  let r ← l.request id
  l.refuseIfAutoResumeHeld id
  require (r.direction = .glcToSol) (.manualReviewNotRecoverable id)
  if r.state ≠ .manualReview then
    require (PreviouslyResumed r) (.manualReviewNotRecoverable id)
    return l
  require (r.manualReviewNote = some .destinationPayoutOutOfBounds) (.manualReviewNotRecoverable id)
  require (r.destinationTxid = none) (.manualReviewNotRecoverable id)
  require (r.releaseAttested = false) (.manualReviewNotRecoverable id)
  require (¬ r.refundLifecycleExists) (.manualReviewNotRecoverable id)
  require (r.closure = none) (.manualReviewNotRecoverable id)
  require (r.sourceFinalizedAt.isSome ∧ r.sourceTxid.isSome ∧ r.sourceVout.isSome)
    (.manualReviewNotRecoverable id)
  refuseUnlessQuoteLocked id r
  require r.quoteLockedAt.isSome (.manualReviewNotRecoverable id)
  let payout ← orFail (live.lockedPayout r) (.manualReviewNotRecoverable id)
  require (live.minTransferAmount ≤ payout) (.manualReviewNotRecoverable id)
  require (payout ≤ live.perTransferLimit) (.manualReviewNotRecoverable id)
  require (r.netDestination = payout) (.manualReviewNotRecoverable id)
  let v ← l.reserve .solanaReserve
  require (r.netDestination ≤ v.reservedLiquidity ∧ r.netDestination ≤ v.pendingObligations)
    (.manualReviewNotRecoverable id)
  require (asI64 (v.protectedMinimum + v.reservedLiquidity) ≤ v.totalReserveBalance)
    (.invariantViolated .solanaReserve)
  return l.setRequest id { r.transition .sourceFinalized with manualReviewNote := none }

/-! ## Closure -/

/-- `close_manual_review`. The reserve row is not touched. -/
def closeManualReview (l : Ledger) (id : ℕ) (disposition : ClosureDisposition)
    (reference note : String) (now : ℤ) : Except LedgerError Ledger := do
  require (reference ≠ "") (.manualReviewNotRecoverable id)
  require (note ≠ "") (.manualReviewNotRecoverable id)
  let r ← l.request id
  if let some existing := r.closure then
    require (existing = disposition) (.manualReviewNotRecoverable id)
    return l
  require (r.state = .manualReview) (.manualReviewNotRecoverable id)
  require (r.destinationTxid = none) (.manualReviewNotRecoverable id)
  require (∀ p ∈ r.goldcoinPayout, p.txid = none) (.manualReviewNotRecoverable id)
  require (¬ r.refundLifecycleExists) (.manualReviewNotRecoverable id)
  require (r.disposition = .rapidBurstHold → r.reviewAvailable now) (.manualReviewNotRecoverable id)
  require (disposition = .retainedPerTerms →
      l.retainedCancelEnabled = true ∧ r.disposition = .rapidBurstHold ∧ r.isHeld)
    (.manualReviewNotRecoverable id)
  return l.setRequest id { r.transition .closed with closure := some disposition }

end Ledger

end Service
