-- SUMMARY: The Goldcoin source leg of the ledger: expiry and cancellation of reservations, deposit observation with its quote lock, finalization, and rollback of orphaned deposits.
import ReserveBridge.Service.Ledger.Admission

/-!
# The Goldcoin source leg

A Goldcoin-sourced request reserves capacity before its deposit exists. The
deposit is matched to it, confirmed, and finalized. It can come late, in the
wrong amount, or be orphaned again.
-/

namespace Service
open Guard

namespace Ledger

/-! ## Expiry and cancellation -/

/-- The rows `expire_reservations` selects. -/
def expiredRows (l : Ledger) (now : ℤ) : List (ℕ × Request) :=
  l.requests.entries.filter fun e =>
    e.2.state = .awaitingDeposit ∧ ∃ t ∈ e.2.reservationExpiresAt, t ≤ now

def expireRow (l : Ledger) (e : ℕ × Request) : Ledger :=
  (l.setRequest e.1 (e.2.transition .expired)).addReserved e.2.direction.destinationReserve
    (-e.2.netDestination)

/-- `expire_reservations`. -/
def expireReservations (l : Ledger) (now : ℤ) : Ledger :=
  (l.expiredRows now).foldl expireRow l

/-- `cancel_request`. -/
def cancelRequest (l : Ledger) (id : ℕ) (note : String) : Except LedgerError Ledger := do
  let r ← l.request id
  require (r.state = .liquidityReserved ∨ r.state = .awaitingDeposit) .panicked
  return (l.setRequest id { r.transition .cancelled with manualReviewNote := some (.other note) })
    |>.addReserved r.direction.destinationReserve (-r.netDestination)

end Ledger

/-! ## Observation of a deposit -/

inductive RateError
  | refused (refusal : RateRefusal)
  | conversion
  deriving DecidableEq, Repr

/-- The figures of a struck quote, and whether it left the price band. -/
structure StruckQuote where
  feeOut : ℕ
  netOut : ℕ
  band : Bool
  deriving DecidableEq, Repr

/-- The quote lock handed to the observation: direction, gross, fee rate, time
and destination scale. -/
abbrev QuoteLock := Direction → ℤ → ℤ → ℤ → ℤ → Except RateError StruckQuote

/-- An output that pays a request, with the wallets that funded it. -/
structure GlcDeposit where
  txid : Txid
  vout : ℕ
  amount : ℕ
  blockHeight : ℤ
  blockHash : ℕ
  sourceWallets : List Bytes
  deriving DecidableEq, Repr

inductive GlcObservationOutcome
  | recorded | lateDepositRecreated | alreadyRecorded | noMatchingRequest
  | lateDepositNoCapacity | amountMismatch | rapidBurstHeld | walletLimited | bridgeRateParked
  deriving DecidableEq, Repr

/-- `destination_scale_of`. -/
def Request.destinationScale (r : Request) : ℤ :=
  if ¬ r.direction.destinationIsSolana ∨ r.netDestination ≤ 0 ∨ r.netAmount ≤ 0 then 1
  else if r.netAmount % r.netDestination = 0 then r.netAmount / r.netDestination
  else 1

/-- The columns that name the deposit. -/
def Request.withDeposit (r : Request) (dep : GlcDeposit) : Request :=
  { r with
    sourceTxid := some dep.txid
    sourceVout := some dep.vout
    sourceBlockHeight := some dep.blockHeight
    sourceBlockHash := some dep.blockHash }

/-- Make an expired reservation again. -/
def Request.readmit (r : Request) : Request :=
  { (r.transition .liquidityReserved).transition .awaitingDeposit with reservationExpiresAt := none }

/-- Park an observed deposit. -/
def Request.parkDeposit (r : Request) (dep : GlcDeposit) (reason : ParkReason)
    (primary : Option Bytes) : Request :=
  { (r.withDeposit dep).transition .manualReview with
    manualReviewNote := some reason
    observedAmount := some dep.amount
    sourceWallet := primary <|> r.sourceWallet }

namespace Ledger

/-- The new net of a locked quote, in the unit of the destination. -/
def lockedDestination (r : Request) (struck : StruckQuote) : ℤ :=
  asI64 (struck.netOut / r.destinationScale)

/-- By how much a locked quote moves the reservation. -/
def lockDelta (r : Request) (struck : StruckQuote) : ℤ :=
  asI64 (lockedDestination r struck - r.netDestination)

/-- Strike and lock the settlement quote: the ledger, the row, and the reason to
park it, if any. A quote the reserve cannot absorb leaves the reserved amounts. -/
def lockQuote (l : Ledger) (r : Request) (lock : QuoteLock) (now : ℤ) :
    Except LedgerError (Ledger × Request × Option ParkReason) :=
  match lock r.direction r.gross r.feeBps now r.destinationScale with
  | .error (.refused refusal) => return (l, r, some refusal.reason)
  | .error .conversion => return (l, r, none)
  | .ok struck => do
    let locked := { r with quoted := true, quoteLockedAt := some now }
    let band := if struck.band then some .bandExceeded else none
    if (struck.feeOut : ℤ) = r.feeAmount ∧ (struck.netOut : ℤ) = r.netAmount ∧
        lockedDestination r struck = r.netDestination then
      return (l, locked, band)
    let v ← l.reserve r.direction.destinationReserve
    if 0 < lockDelta r struck ∧ v.headroom < lockDelta r struck then
      return (l, locked, some .insufficientCapacityAtLock)
    return (l.addReserved r.direction.destinationReserve (lockDelta r struck),
      { locked with
        feeAmount := asI64 struck.feeOut
        netAmount := asI64 struck.netOut
        netDestination := lockedDestination r struck },
      band)

/-- The distinct funding wallets, in order. -/
def tracedWallets (dep : GlcDeposit) : List Bytes := (dep.sourceWallets.filter (· ≠ [])).dedup

/-- The windows of all funding wallets and of the recipient, against every other
request. -/
def depositEligibility (l : Ledger) (id : ℕ) (r : Request) (dep : GlcDeposit) (now : ℤ) :
    RouteWalletEligibility where
  sourceRetryAfter := ((tracedWallets dep).filterMap fun w =>
    l.walletWindowRetryAfter r.direction.sourceChain .source w now (.excludingRequest id)).max?
  destinationRetryAfter :=
    l.walletWindowRetryAfter r.direction.destinationChain .destination r.recipient now
      (.excludingRequest id)

/-- The burst rule over every funding wallet. -/
def depositBurst (l : Ledger) (id : ℕ) (r : Request) (dep : GlcDeposit) (now : ℤ) : Bool :=
  (if tracedWallets dep = [] then [none] else (tracedWallets dep).map some).any fun w =>
    l.rapidBurstVerdict r.direction w (some r.recipient) dep.amount now (.excludingRequest id)

/-- The observation of a deposit on a row that awaits it. `fresh` is the outcome
when nothing parks it. -/
def observeAwaiting (l : Ledger) (id : ℕ) (r : Request) (dep : GlcDeposit) (lock : QuoteLock)
    (fresh : GlcObservationOutcome) (now : ℤ) :
    Except LedgerError (GlcObservationOutcome × Ledger) := do
  require (¬ l.SourceOutpointTaken (some id) dep.txid dep.vout) .constraintViolated
  if (dep.amount : ℤ) ≠ r.gross % 2 ^ 64 then
    return (.amountMismatch,
      l.setRequest id (r.parkDeposit dep (.depositAmountMismatch r.gross dep.amount) none))
  let (l, r, ratePark) ← l.lockQuote r lock now
  let primary := (tracedWallets dep).head?
  if l.depositBurst id r dep now then
    return (.rapidBurstHeld,
      l.setRequest id (l.markRapidBurstHold (r.parkDeposit dep .rapidBurstHold primary) now))
  match (l.depositEligibility id r dep now).blocker with
  | some role =>
    return (.walletLimited, l.setRequest id (r.parkDeposit dep role.limitReason primary))
  | none =>
    match ratePark with
    | some reason => return (.bridgeRateParked, l.setRequest id (r.parkDeposit dep reason primary))
    | none =>
      return (fresh, l.setRequest id
        { ((r.withDeposit dep).transition .depositObserved).transition .confirming with
          sourceConfirmations := 1
          sourceWallet := primary <|> r.sourceWallet })

/-- `record_glc_deposit_observed_from`. An expired reservation is made again if
the reserve still has the room. -/
def recordGlcDepositObserved (l : Ledger) (id : ℕ) (dep : GlcDeposit) (lock : QuoteLock)
    (now : ℤ) : Except LedgerError (GlcObservationOutcome × Ledger) :=
  match l.requests.get? id with
  | none => return (.noMatchingRequest, l)
  | some r => do
    if (r.state = .depositObserved ∨ r.state = .confirming) ∧ r.sourceTxid = some dep.txid then
      return (.alreadyRecorded, l)
    if ¬ r.direction.sourceIsGoldcoin then
      return (.noMatchingRequest, l)
    if r.state = .expired then
      let v ← l.reserve r.direction.destinationReserve
      if v.headroom < r.netDestination then
        require (¬ l.SourceOutpointTaken (some id) dep.txid dep.vout) .constraintViolated
        return (.lateDepositNoCapacity, l.setRequest id
          { (r.withDeposit dep).transition .manualReview with
            manualReviewNote := some .lateDepositNoCapacity })
      return ← (l.addReserved r.direction.destinationReserve r.netDestination).observeAwaiting id
        r.readmit dep lock .lateDepositRecreated now
    if r.state ≠ .awaitingDeposit then
      return (.noMatchingRequest, l)
    l.observeAwaiting id r dep lock .recorded now

/-! ## Confirmation and finality -/

/-- `update_glc_confirmations`. -/
def updateGlcConfirmations (l : Ledger) (id : ℕ) (confirmations : ℤ) : Except LedgerError Ledger := do
  let r ← l.request id
  if r.state = .confirming ∧ r.sourceConfirmations < confirmations then
    return l.setRequest id { r with sourceConfirmations := confirmations }
  return l

/-- `mark_glc_source_finalized`. -/
def markGlcSourceFinalized (l : Ledger) (id : ℕ) (now : ℤ) : Except LedgerError Ledger := do
  let r ← l.request id
  if r.state = .sourceFinalized then return l
  require (r.state = .confirming) .panicked
  return (l.setRequest id { r.transition .sourceFinalized with sourceFinalizedAt := some now })
    |>.addPending r.direction.destinationReserve r.netDestination

/-- `mark_glc_deposit_spent_before_finalized`. -/
def markGlcDepositSpentBeforeFinalized (l : Ledger) (id : ℕ) : Except LedgerError Ledger := do
  let r ← l.request id
  if r.state = .manualReview then return l
  require (r.state = .confirming) .panicked
  return l.setRequest id
    { r.transition .manualReview with manualReviewNote := some .depositSpentBeforeFinalized }

end Ledger

/-! ## Rollback -/

/-- Forget the deposit of a row whose block was orphaned. -/
def Request.unobserve (r : Request) : Request :=
  { (r.transition .reorged).transition .awaitingDeposit with
    sourceTxid := none
    sourceVout := none
    sourceBlockHeight := none
    sourceBlockHash := none
    sourceConfirmations := 0
    quoteLockedAt := none }

namespace Ledger

/-- `mark_glc_reorged`. -/
def markGlcReorged (l : Ledger) (id : ℕ) : Except LedgerError Ledger := do
  let r ← l.request id
  require (r.state = .depositObserved ∨ r.state = .confirming) .panicked
  return l.setRequest id r.unobserve

/-- The rows `goldcoin_rollback_reorg` selects. -/
def orphanedRows (l : Ledger) (forkHeight : ℤ) : List (ℕ × Request) :=
  l.requests.entries.filter fun e =>
    e.2.direction.sourceIsGoldcoin ∧ (e.2.state = .depositObserved ∨ e.2.state = .confirming) ∧
      ∃ h ∈ e.2.sourceBlockHeight, forkHeight < h

/-- The requests of `goldcoin_rollback_reorg`. -/
def goldcoinRollbackReorg (l : Ledger) (forkHeight : ℤ) : Ledger :=
  (l.orphanedRows forkHeight).foldl (fun l e => l.setRequest e.1 e.2.unobserve) l

/-! ## Loops over selected rows -/

section Rows

variable {l : Ledger} {rows : List (ℕ × Request)} {step : Ledger → ℕ × Request → Ledger}

/-- A loop over rows that were read before it starts: each round finds its row
as it was read, since the rounds before it wrote other rows. -/
theorem foldl_rows {P : Ledger → Prop} (hnodup : (rows.map Prod.fst).Nodup)
    (hrows : ∀ e ∈ rows, l.requests.get? e.1 = some e.2)
    (hstep : ∀ l e, e ∈ rows → l.requests.get? e.1 = some e.2 → P l →
      P (step l e) ∧ ∀ k ≠ e.1, (step l e).requests.get? k = l.requests.get? k)
    (h : P l) : P (rows.foldl step l) := by
  induction rows generalizing l with
  | nil => exact h
  | cons e rows ih =>
    rw [List.map_cons, List.nodup_cons] at hnodup
    obtain ⟨hP, hframe⟩ := hstep l e List.mem_cons_self (hrows e List.mem_cons_self) h
    refine ih hnodup.2 (fun e' he' => ?_)
      (fun l e' he' => hstep l e' (List.mem_cons_of_mem _ he')) hP
    have hne : e'.1 ≠ e.1 := fun heq => hnodup.1 (heq ▸ List.mem_map_of_mem he')
    rw [hframe e'.1 hne]
    exact hrows e' (List.mem_cons_of_mem _ he')

/-- The rows a query selects are the rows of the table. -/
theorem get?_of_mem_filter {p : ℕ × Request → Bool} {e : ℕ × Request}
    (h : e ∈ l.requests.entries.filter p) : l.requests.get? e.1 = some e.2 :=
  Store.get?_of_mem (List.mem_of_mem_filter h)

/-- A query selects no row twice. -/
theorem nodup_filter_keys (p : ℕ × Request → Bool) :
    ((l.requests.entries.filter p).map Prod.fst).Nodup :=
  l.requests.nodup.sublist (List.filter_sublist.map _)

end Rows

end Ledger

end Service
