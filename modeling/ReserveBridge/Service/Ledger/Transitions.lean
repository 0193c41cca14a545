-- SUMMARY: The life of a request as a state machine: what an operation books on a reserve, the rows it inserts, the transitions of a row, and the effect of an operation.
import ReserveBridge.Service.Ledger.Observation
import ReserveBridge.Service.Ledger.Step
import Mathlib.Algebra.Group.Prod

/-!
# Transitions of a request

The life of a request as a state machine of its own: one constructor for each
way a row changes, with what its change books on the reserve of its destination.
An operation of the ledger inserts a row, moves rows, or leaves rows and books
alone.
-/

namespace Service
open Guard

/-! ## Books -/

/-- Reserved liquidity and pending obligations of a reserve. -/
def Ledger.books (l : Ledger) (d : ReserveDirection) : Option (ℤ × ℤ) :=
  (l.reserves d).map fun v => (v.reservedLiquidity, v.pendingObligations)

namespace Ledger

variable {l : Ledger} {d e : ReserveDirection} {n : ℤ} {id : ℕ} {r : Request}

@[simp] theorem books_setRequest : (l.setRequest id r).books d = l.books d := rfl
@[simp] theorem books_withVault {v : Vault} : { l with vault := v }.books d = l.books d := rfl
@[simp] theorem books_insertRequest : (l.insertRequest r).books d = l.books d := rfl

/-- An update of the reserve row moves the books of that reserve only. -/
theorem books_updateReserve {f : Reserve → Reserve} {δ : ℤ × ℤ}
    (hf : ∀ v, ((f v).reservedLiquidity, (f v).pendingObligations) =
      (v.reservedLiquidity, v.pendingObligations) + δ) :
    (l.updateReserve e f).books d = (l.books d).map (· + if d = e then δ else 0) := by
  unfold books
  rw [reserves_updateReserve]
  by_cases hd : d = e
  · subst hd
    rw [if_pos rfl, if_pos rfl, Option.map_map, Option.map_map]
    exact Option.map_congr fun v _ => hf v
  · simp [hd, Function.comp_def]

theorem books_addReserved :
    (l.addReserved e n).books d = (l.books d).map (· + if d = e then (n, 0) else 0) :=
  books_updateReserve fun v => by simp

theorem books_addPending :
    (l.addPending e n).books d = (l.books d).map (· + if d = e then (0, n) else 0) :=
  books_updateReserve fun v => by simp

theorem books_addObligation :
    (l.addObligation e n).books d = (l.books d).map (· + if d = e then (n, n) else 0) :=
  books_updateReserve fun v => by simp

theorem books_settle :
    (l.settle e n).books d = (l.books d).map (· + if d = e then (-n, -n) else 0) :=
  books_updateReserve fun v => by simp [sub_eq_add_neg]

/-- An update that leaves both amounts. -/
theorem books_updateReserve_of_eq {f : Reserve → Reserve}
    (hf : ∀ v, (f v).reservedLiquidity = v.reservedLiquidity ∧
      (f v).pendingObligations = v.pendingObligations) :
    (l.updateReserve e f).books d = l.books d := by
  rw [books_updateReserve fun v => show _ = _ + (0 : ℤ × ℤ) by simp [hf v]]
  simp

@[simp] theorem books_accrueFee : (l.accrueFee e n).books d = l.books d :=
  books_updateReserve_of_eq fun _ => ⟨rfl, rfl⟩

@[simp] theorem books_evaluateLiquidityGate : (l.evaluateLiquidityGate e).books d = l.books d :=
  books_updateReserve_of_eq fun _ => ⟨rfl, rfl⟩

end Ledger

/-! ## Inserted rows -/

namespace RequestState

/-- Parked, or on the way to a refund. -/
def isParked : RequestState → Bool
  | manualReview | refundPending | refundBroadcast => true
  | _ => false

/-- The deposit is final and the payout is not. -/
def isOwed : RequestState → Bool
  | sourceFinalized | settlementAuthorized | destinationSubmitted => true
  | _ => false

end RequestState

namespace ParkReason

/-- The reasons a fold parks under. -/
def isFoldPark : ParkReason → Bool
  | depositAmountMismatch _ _ | insufficientCapacityAtLock | lateDepositNoCapacity
  | depositSpentBeforeFinalized | foreignContract | reverted _ => false
  | _ => true

end ParkReason

/-- No other table has a row for it, and nothing was decided about it. -/
structure NewRow (r : Request) : Prop where
  destinationTxid : r.destinationTxid = none
  solanaRefund : r.solanaRefund = none
  goldcoinRefund : r.goldcoinRefund = none
  goldcoinPayout : r.goldcoinPayout = none
  robinhoodTx : r.robinhoodTx = fun _ => none
  releaseAttested : r.releaseAttested = false
  closure : r.closure = none
  operatorDecision : r.operatorDecision = none
  hold : (r.disposition = .normal ∧ r.holdNote = false) ∨
    (r.disposition = .rapidBurstHold ∧ r.holdNote = true ∧ r.state = .manualReview)
  log : ∀ e ∈ r.stateLog, e.2 = r.state ∨ e.2 = .liquidityReserved

/-- A row as it is inserted, with what is booked for it. -/
inductive Inserted (r : Request) : ℤ × ℤ → Prop
  | awaiting (fresh : NewRow r) (state : r.state = .awaitingDeposit)
    (source : r.sourceTxid = none ∧ r.sourceVout = none) (final : r.sourceFinalizedAt = none) :
    Inserted r (r.netDestination, 0)
  | admitted (fresh : NewRow r) (source : ¬ r.direction.sourceIsGoldcoin)
    (state : r.state = .sourceFinalized) :
    Inserted r (r.netDestination, r.netDestination)
  | parked (fresh : NewRow r) (source : ¬ r.direction.sourceIsGoldcoin)
    (state : r.state = .manualReview)
    (note : ∃ reason ∈ r.manualReviewNote, reason.isFoldPark = true) :
    Inserted r 0

theorem Inserted.newRow {r : Request} {δ : ℤ × ℤ} (h : Inserted r δ) : NewRow r := by
  cases h with
  | awaiting fresh => exact fresh
  | admitted fresh => exact fresh
  | parked fresh => exact fresh

/-! ## Transitions of a row -/

/-- The operations of the Goldcoin indexer that write or clear the deposit of a
request. -/
def Op.writesDeposit : Op → Bool
  | .recordGlcDepositObserved _ _ _ _ | .markGlcReorged _ | .goldcoinRollbackReorg _ => true
  | _ => false

/-- The operations that resume a request. -/
def Op.Readmits (id : ℕ) : Op → Prop
  | .resumeManualReview _ k _ | .processHeldManualReview k _ _
  | .resumeGlcToSolDestinationBound k _ => k = id
  | _ => False

/-- The operations that record a decision on a request: what is decided, whether
as an emergency, and when. -/
def Op.Decides (id : ℕ) (decision : OperatorDecision) (emergency : Bool) (now : ℤ) : Op → Prop
  | .recordOperatorDecision k d _ e t => k = id ∧ d = decision ∧ e = emergency ∧ t = now
  | .processHeldManualReview k _ t =>
    k = id ∧ decision = .process ∧ emergency = false ∧ t = now
  | _ => False

/-- What is written to the columns of a hold: a hold, its release, or a decision. -/
inductive Reviewed (op : Op) (id : ℕ) (r : Request) :
    Bool → ManualReviewDisposition → Option OperatorDecision → Option ℤ → Prop
  | held {note : String} {reviewAfter : Option ℤ}
    (hop : op = .setManualReviewHold id reviewAfter note) (h : r.disposition ≠ .rapidBurstHold) :
    Reviewed op id r true .operatorHold none reviewAfter
  | released (hop : op = .clearManualReviewHold id) (h : r.disposition ≠ .rapidBurstHold)
    (hold : r.holdNote = true ∨ r.disposition ≠ .normal) :
    Reviewed op id r false .normal (some .release) r.reviewAfter
  | decided {decision : OperatorDecision} {emergency : Bool} {now : ℤ}
    (hop : op.Decides id decision emergency now) (h : decision ≠ .release) (hold : r.isHeld)
    (refund : emergency = true → decision = .refund)
    (due : r.disposition = .rapidBurstHold → emergency = false → r.reviewAvailable now) :
    Reviewed op id r (if decision = .process then false else r.holdNote) r.disposition
      (some decision) r.reviewAfter

/-- The states before the deposit is final. -/
def Request.isEarly (r : Request) : Bool :=
  match r.state with
  | .liquidityReserved | .awaitingDeposit | .expired | .depositObserved | .confirming => true
  | _ => false

/-- `refuse_if_auto_resume_held` lets the row pass. -/
def Request.Unheld (r : Request) : Prop :=
  r.holdNote = false ∧ (r.disposition ≠ .normal → r.operatorDecision ≠ none)

/-- `refuse_unless_decided` lets the row pass. -/
def Request.RefundDecided (r : Request) : Prop :=
  r.holdNote = true ∨ r.disposition ≠ .normal → r.operatorDecision = some .refund

/-- How a row changes, with what is booked on the reserve of its destination.
The operation is named where more than its own kind of row could take it. -/
inductive Transition (op : Op) (id : ℕ) (r : Request) : Request → ℤ × ℤ → Prop
  -- the source leg
  | expired (h : r.state = .awaitingDeposit) :
    Transition op id r (r.transition .expired) (-r.netDestination, 0)
  | cancelled (h : r.state = .liquidityReserved ∨ r.state = .awaitingDeposit) (note : ParkReason) :
    Transition op id r { r.transition .cancelled with manualReviewNote := some note }
      (-r.netDestination, 0)
  | lateDeposit (h : r.state = .expired) (dep : GlcDeposit) (hop : op.writesDeposit = true) :
    Transition op id r
      { (r.withDeposit dep).transition .manualReview with
        manualReviewNote := some .lateDepositNoCapacity } 0
  | observed {dep : GlcDeposit} {lock : QuoteLock} {now : ℤ} {r₀ r₁ r' : Request} {n k : ℤ}
    (hop : op = .recordGlcDepositObserved id dep lock now) (source : r.direction.sourceIsGoldcoin)
    (h₀ : Ledger.Awaiting r r₀ n) (h₁ : Ledger.Locked lock now r₀ r₁ k)
    (h : Ledger.Observed dep r₁ r') (hnet : r'.netDestination = r₁.netDestination) :
    Transition op id r r' (n + k, 0)
  | confirmations (c : ℤ) : Transition op id r { r with sourceConfirmations := c } 0
  | finalized (h : r.state = .confirming) (now : ℤ) :
    Transition op id r { r.transition .sourceFinalized with sourceFinalizedAt := some now }
      (0, r.netDestination)
  | spentBeforeFinalized (h : r.state = .confirming) :
    Transition op id r
      { r.transition .manualReview with manualReviewNote := some .depositSpentBeforeFinalized } 0
  | reorged (h : r.state = .depositObserved ∨ r.state = .confirming) (hop : op.writesDeposit = true) :
    Transition op id r r.unobserve 0
  -- manual review
  | parkedForBounds (h : r.state = .sourceFinalized) :
    Transition op id r
      { r.transition .manualReview with manualReviewNote := some .destinationPayoutOutOfBounds }
      (if r.direction.sourceIsGoldcoin then 0 else (-r.netDestination, -r.netDestination))
  | parkedForContract (h : r.state = .sourceFinalized) (source : r.direction.sourceIsRobinhood) :
    Transition op id r
      { r.transition .manualReview with manualReviewNote := some .foreignContract } 0
  | reviewed (h : op ≠ .clearManualReviewHold id → r.state = .manualReview) (holdNote : Bool)
      (disposition : ManualReviewDisposition) (decision : Option OperatorDecision)
      (reviewAfter : Option ℤ)
      (review : Reviewed op id r holdNote disposition decision reviewAfter) :
    Transition op id r
      { r.noteReview with
        holdNote := holdNote
        disposition := disposition
        operatorDecision := decision
        reviewAfter := reviewAfter } 0
  | resumed (h : r.state = .manualReview) (source : ¬ r.direction.sourceIsGoldcoin)
    (note : ∃ reason ∈ r.manualReviewNote, reason.isRecoverable = true)
    (noRefund : if r.direction.sourceIsRobinhood then r.robinhoodTx .refund = none
      else r.solanaRefund = none)
    (noPayout : r.destinationTxid = none) (next : Option ParkReason) (hop : op.Readmits id)
    (unheld : r.Unheld) :
    Transition op id r { r.transition .sourceFinalized with manualReviewNote := next }
      (r.netDestination, r.netDestination)
  | resumedBounds (h : r.state = .manualReview) (source : r.direction = .glcToSol)
    (note : r.manualReviewNote = some .destinationPayoutOutOfBounds)
    (noRefund : ¬ r.refundLifecycleExists) (hop : op.Readmits id) (unheld : r.Unheld) :
    Transition op id r { r.transition .sourceFinalized with manualReviewNote := none } 0
  | closed {disposition : ClosureDisposition} {reference note : String} {now : ℤ}
    (hop : op = .closeManualReview id disposition reference note now) (h : r.state = .manualReview)
    (noRefund : ¬ r.refundLifecycleExists)
    (due : r.disposition = .rapidBurstHold → r.reviewAvailable now) :
    Transition op id r { r.transition .closed with closure := some disposition } 0
  -- refunds
  | solanaRefundBegun (h : r.state = .manualReview) (source : r.direction.sourceIsSolana)
    (noRefund : r.solanaRefund = none) (f : SolanaRefund) (hf : f.state = .pending)
    (hop : ∃ verified note, op = .beginSolanaRefund id verified note) (decided : r.RefundDecided) :
    Transition op id r { r.transition .refundPending with solanaRefund := some f } 0
  | solanaRefundBroadcast {f : SolanaRefund} (hf : r.solanaRefund = some f)
    (h : r.state = .refundPending ∨ r.state = .refundBroadcast) :
    Transition op id r
      (if r.state = .refundPending then
        { r with solanaRefund := some { f with state := .broadcast, recorded := true } }.transition
          .refundBroadcast
      else { r with solanaRefund := some { f with state := .broadcast, recorded := true } }) 0
  | solanaRefundConfirmed {f : SolanaRefund} (hf : r.solanaRefund = some f)
    (h : r.state = .refundBroadcast) :
    Transition op id r
      { r.transition .refunded with solanaRefund := some { f with state := .confirmed } } 0
  | refundReturned {nothingLanded : Bool} {note : String}
    (hop : op = .returnRefundToManualReview id nothingLanded note) (h : r.state = .refundPending)
    (source : r.direction.sourceIsSolana) :
    Transition op id r { r.transition .manualReview with solanaRefund := none } 0
  | goldcoinRefundBegun (h : r.state = .manualReview) (source : r.direction.sourceIsGoldcoin)
    (note : ∃ reason ∈ r.manualReviewNote, reason.isGlcRefundable = true)
    (noRefund : r.goldcoinRefund = none) {inputs : List Outpoint}
    (hop : ∃ amount text, op = .beginGoldcoinRefund id amount inputs text)
    (decided : r.RefundDecided) :
    Transition op id r
      { r.transition .refundPending with
        goldcoinRefund := some
          { state := .built, inputs := inputs, txid := none, reservationReleased := false } } 0
  | goldcoinRefundSigned {f : GoldcoinRefund} (hf : r.goldcoinRefund = some f)
    (h : f.state = .built) :
    Transition op id r { r with goldcoinRefund := some { f with state := .signed } } 0
  | goldcoinRefundBroadcast {f : GoldcoinRefund} {txid : Txid}
    (hop : op = .recordGoldcoinRefundBroadcast id txid) (hf : r.goldcoinRefund = some f)
    (h : f.state = .signed) :
    Transition op id r
      { r.transitionFrom .refundPending .refundBroadcast with
        goldcoinRefund := some { f with state := .broadcast, txid := some txid } } 0
  | goldcoinRefundConfirmed {f : GoldcoinRefund}
    (hop : op = .recordGoldcoinRefundConfirmed id ∨
      ∃ c q, op = .reconcileGoldcoinRefundConfirmations id c q)
    (hf : r.goldcoinRefund = some f) (h : f.state = .broadcast) :
    Transition op id r
      { r.transitionFrom .refundBroadcast .refunded with
        goldcoinRefund := some { f with state := .refunded, reservationReleased := true } }
      (if f.reservationReleased then 0 else (-r.netDestination, 0))
  | robinhoodRefundPending (h : r.state = .manualReview) (source : r.direction.sourceIsRobinhood)
    (hop : op = .markRobinhoodRefundPending id) :
    Transition op id r (r.transition .refundPending) 0
  | robinhoodRefundConfirmed (hop : op = .markRobinhoodRefundConfirmed id)
    (h : r.state = .refundPending ∨ r.state = .refundBroadcast)
    (source : r.direction.sourceIsRobinhood) :
    Transition op id r (r.transition .refunded) 0
  | robinhoodParked {reason : ParkReason} (hop : op = .markRobinhoodRequestManualReview id reason)
    (h : r.state ≠ .settled ∧ r.state ≠ .refunded ∧ r.state ≠ .manualReview) :
    Transition op id r { r.transition .manualReview with manualReviewNote := some reason }
      (if r.state.isActive then (-r.netDestination, -r.netDestination) else 0)
  -- the destination leg
  | releaseSubmitted (h : r.state = .sourceFinalized) (destination : r.direction.destinationIsSolana)
    (signature : ℕ) :
    Transition op id r
      { r.transition .destinationSubmitted with destinationTxid := some signature } 0
  | releaseAttested (hop : op = .recordReleaseAttestation id) :
    Transition op id r { r with releaseAttested := true } 0
  | releaseConfirmed (h : r.state = .destinationSubmitted)
    (destination : r.direction.destinationIsSolana) :
    Transition op id r
      (if r.direction.settlesOnRelease then
        (r.transition .destinationConfirmed).transition .settled
      else r.transition .destinationConfirmed)
      (-r.netDestination, -r.netDestination)
  | payoutBuilt (destination : r.direction.destinationIsGoldcoin) (noPayout : r.goldcoinPayout = none)
    (noRefund : r.solanaRefund = none) (p : GoldcoinPayout) (hp : p.state = .built)
    (hp' : p.completionSignature = none)
    (hop : ∃ plan depth, op = .buildPayout id plan depth ∧ p.inputs = plan.inputs) :
    Transition op id r { r with goldcoinPayout := some p } 0
  | payoutSigned {p : GoldcoinPayout} (hp : r.goldcoinPayout = some p) (hp' : p.state = .built)
    (h : r.state = .sourceFinalized) :
    Transition op id r
      { r.transition .settlementAuthorized with
        goldcoinPayout := some { p with state := .signed } } 0
  | payoutBroadcast {p : GoldcoinPayout} (hp : r.goldcoinPayout = some p) (hp' : p.state = .signed)
    (h : r.state = .settlementAuthorized) (txid : Txid) :
    Transition op id r
      { r.transition .destinationSubmitted with
        destinationTxid := some txid
        goldcoinPayout := some { p with state := .broadcast, txid := some txid } } 0
  | payoutConfirmations {p : GoldcoinPayout} (hp : r.goldcoinPayout = some p) (c : ℤ) :
    Transition op id r { r with goldcoinPayout := some { p with confirmations := c } } 0
  | payoutConfirmed {c depth : ℤ} {p : GoldcoinPayout}
    (hop : op = .updateGoldcoinPayoutConfirmations id c depth) (hdepth : depth ≤ c)
    (hp : r.goldcoinPayout = some p) (hp' : p.state = .broadcast) (c' : ℤ) :
    Transition op id r
      { r.transition .destinationConfirmed with
        goldcoinPayout := some { p with confirmations := c', state := .confirmed } } 0
  | completionSubmitted {p : GoldcoinPayout} (hp : r.goldcoinPayout = some p)
    (h : r.direction = .solToGlc) (signature : ℕ) :
    Transition op id r
      { r with goldcoinPayout := some { p with completionSignature := some signature } } 0
  | completionConfirmed (h : r.state = .destinationConfirmed)
    (route : r.direction = .solToGlc) :
    Transition op id r
      { r.transition .settled with
        goldcoinPayout := r.goldcoinPayout.map fun (p : GoldcoinPayout) =>
          { p with state := .completed } }
      (-r.netDestination, -r.netDestination)
  | robinhoodTx {kind : RobinhoodTxKind} {t : RobinhoodTx}
    (h : r.robinhoodTx kind = none →
      t.state = .authorizing ∧ ∃ digest, op = .beginRobinhoodTx kind id digest) :
    Transition op id r (r.setRobinhoodTx kind t) 0
  | robinhoodPayoutSettled (hop : op = .markRobinhoodPayoutSettled id)
    (destination : r.direction.destinationIsRobinhood)
    (h : ¬ (r.state = .settled ∨
      (r.state = .destinationConfirmed ∧ ¬ r.direction.settlesOnPayout))) :
    Transition op id r
      (if r.direction.settlesOnPayout then
        (r.transition .destinationConfirmed).transition .settled
      else r.transition .destinationConfirmed)
      (-r.netDestination, -r.netDestination)
  | robinhoodPayoutCompleted (h : r.state = .destinationConfirmed) (route : r.direction = .solToRhn) :
    Transition op id r (r.transition .settled) 0
  | robinhoodSettled (h : r.state = .destinationConfirmed) (route : r.direction = .rhnToSol) :
    Transition op id r (r.transition .settled) 0
  | robinhoodSettledGoldcoin (h : r.state = .destinationConfirmed) (route : r.direction = .rhnToGlc)
    (p : Option GoldcoinPayout)
    (hp : p.isSome = r.goldcoinPayout.isSome ∧
      p.bind GoldcoinPayout.completionSignature =
        r.goldcoinPayout.bind GoldcoinPayout.completionSignature ∧
      p.map GoldcoinPayout.inputs = r.goldcoinPayout.map GoldcoinPayout.inputs) :
    Transition op id r { r.transition .settled with goldcoinPayout := p }
      (-r.netDestination, -r.netDestination)

/-! ## Effects -/

/-- The operations that move several rows, or one row twice. -/
def Op.isCompound : Op → Bool
  | .expireReservations _ | .goldcoinRollbackReorg _ | .processHeldManualReview _ _ _
  | .reconcileRobinhoodSettlementFromChain _ _ _ => true
  | _ => false

/-- The operations that may write the tables of the vault. -/
def Op.touchesVault : Op → Bool
  | .beginGoldcoinRefund _ _ _ _ | .recordGoldcoinRefundBroadcast _ _ | .reserveVaultUtxos _ _ _
  | .buildPayout _ _ _ | .recordGoldcoinPayoutBroadcast _ _ | .markGoldcoinCompletionConfirmed _
  | .applyCompletionLanded _ | .syncVaultUtxos _ _ | .setZeroConfHold _ _
  | .recordSplitBuilt _ _ _ _ | .recordSplitSigned _ | .recordSplitBroadcast _ _ _
  | .recordSplitConfirmed _ | .abandonSplit _ _ | .readoptSplit _ | .setSplitMissingInputs _ _
  | .clearSplitMissingInputs _ => true
  | _ => false

/-- The folds of Solana deposits. -/
def Op.foldsSolana : Op → Bool
  | .foldSolDeposit _ _ _ _ _ _ | .foldSolDepositToRobinhood _ _ _ _ _ _ _ _ => true
  | _ => false

/-- The route and the recipient of the row an operation may insert. -/
def Op.recorded : Op → Option (Direction × Bytes)
  | .createRequest d _ recipient _ _ _ _ => some (d, recipient)
  | .foldSolDeposit _ _ _ recipient _ _ => some (.solToGlc, recipient)
  | .foldSolDepositToRobinhood _ _ _ evm raw _ _ _ => some (.solToRhn, evm.getD raw)
  | .foldRobinhoodDeposit obs _ destination _ _ _ =>
    some (obs.direction, destination.getD obs.destination)
  | _ => none

/-- No row in the window has the recipient of the new one. -/
def Ledger.WindowOpen (l : Ledger) (r : Request) : Prop :=
  l.walletWindowRetryAfter r.direction.destinationChain .destination r.recipient r.createdAt
    .newRequest = none

/-- What an operation does to rows and books. -/
inductive Effect (op : Op) : Ledger → Ledger → Prop
  | idle {l l' : Ledger} (requests : l'.requests = l.requests) (books : ∀ d, l'.books d = l.books d)
    (vault : op.touchesVault = false → l'.vault = l.vault) :
    Effect op l l'
  | configured {l l' : Ledger} (requests : l'.requests = l.requests)
    (books : ∀ d, l'.books d = l.books d ∨ (l.books d = none ∧ l'.books d = some 0))
    (vault : l'.vault = l.vault) :
    Effect op l l'
  | inserted {l l' : Ledger} {r : Request} {δ : ℤ × ℤ} (h : Inserted r δ)
    (row : (l.books r.direction.destinationReserve).isSome)
    (requests : l'.requests = l.requests.push r)
    (books : ∀ d, l'.books d =
      (l.books d).map (· + if d = r.direction.destinationReserve then δ else 0))
    (vault : l'.vault = l.vault)
    (solana : r.direction.sourceIsSolana → r.sourceObligationIndex.isSome →
      op.foldsSolana = true)
    (recorded : op.recorded = some (r.direction, r.recipient))
    (window : r.state = .sourceFinalized → l.WindowOpen r) :
    Effect op l l'
  | moved {l l' : Ledger} {id : ℕ} {r r' : Request} {δ : ℤ × ℤ}
    (found : l.requests.get? id = some r) (h : Transition op id r r' δ)
    (requests : l'.requests = l.requests.modify id fun _ => r')
    (books : ∀ d, l'.books d =
      (l.books d).map (· + if d = r.direction.destinationReserve then δ else 0))
    (vault : op.touchesVault = false → l'.vault = l.vault) :
    Effect op l l'
  | seq {l l₁ l' : Ledger} (hop : op.isCompound = true) (h₁ : Effect op l l₁) (h : Effect op l₁ l') :
    Effect op l l'

namespace Effect

variable {op : Op} {l l₁ l' : Ledger} {id : ℕ} {r r' : Request} {δ : ℤ × ℤ} {n : ℤ}

theorem refl : Effect op l l := .idle rfl (fun _ => rfl) fun _ => rfl

/-- The row is written, and the books stay. -/
theorem set (found : l.requests.get? id = some r) (h : Transition op id r r' 0) :
    Effect op l (l.setRequest id r') :=
  .moved found h rfl (fun d => by simp) fun _ => rfl

/-- The row is written, and the vault too. -/
theorem setVault {v : Vault} (hop : op.touchesVault = true) (found : l.requests.get? id = some r)
    (h : Transition op id r r' 0) : Effect op l ({ l with vault := v }.setRequest id r') :=
  .moved found h rfl (fun d => by simp) fun hother => by rw [hop] at hother; cases hother

/-- The row is written, and other amounts of a reserve. -/
theorem setReserve {d : ReserveDirection} {f : Reserve → Reserve}
    (hf : ∀ v, (f v).reservedLiquidity = v.reservedLiquidity ∧
      (f v).pendingObligations = v.pendingObligations)
    (found : l.requests.get? id = some r) (h : Transition op id r r' 0) :
    Effect op l ((l.setRequest id r').updateReserve d f) :=
  .moved found h rfl (fun d => by simp [Ledger.books_updateReserve_of_eq hf]) fun _ => rfl

/-- The row is written, and the reservation moves. -/
theorem setReserved (found : l.requests.get? id = some r) (h : Transition op id r r' (n, 0)) :
    Effect op l ((l.setRequest id r').addReserved r.direction.destinationReserve n) :=
  .moved found h rfl (fun d => by rw [Ledger.books_addReserved, Ledger.books_setRequest]) fun _ => rfl

/-- The row is written, and reservation and obligation move together. -/
theorem setObligation (found : l.requests.get? id = some r) (h : Transition op id r r' (n, n)) :
    Effect op l ((l.setRequest id r').addObligation r.direction.destinationReserve n) :=
  .moved found h rfl (fun d => by rw [Ledger.books_addObligation, Ledger.books_setRequest])
    fun _ => rfl

/-- The row is written, and the reserve of its destination is settled. -/
theorem setSettled {d e : ReserveDirection} {fee : ℤ} (found : l.requests.get? id = some r)
    (hd : r.direction.destinationReserve = d) (h : Transition op id r r' (-n, -n)) :
    Effect op l (((l.setRequest id r').settle d n).accrueFee e fee) :=
  .moved found h rfl
    (fun _ => by rw [Ledger.books_accrueFee, Ledger.books_settle, Ledger.books_setRequest, hd])
    fun _ => rfl

end Effect

end Service
