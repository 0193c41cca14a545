-- SUMMARY: Admission of new demand: reserve headroom, wallet windows, the rapid-burst rule, the admission gates, request creation, and the folds of final deposits.
import ReserveBridge.Service.Ledger.Types

/-!
# Admission

`create_request_from`, the folds of Solana and Robinhood deposits, and what
they consult: `service/src/ledger/admission.rs`, `wallet_window.rs` and
`rapid_burst.rs`. A deposit that is refused is recorded and parked, since it
already happened on its own chain.
-/

namespace Service
open Guard

/-! ## Headroom -/

/-- `total_reserve_balance - protected_minimum - reserved_liquidity`, in the
wrapping arithmetic of a release build. -/
def Reserve.headroom (v : Reserve) : ℤ :=
  asI64 (asI64 (v.totalReserveBalance - v.protectedMinimum) - v.reservedLiquidity)

/-- The subtraction wraps as a whole. -/
theorem Reserve.headroom_eq (v : Reserve) :
    v.headroom = asI64 (v.totalReserveBalance - v.protectedMinimum - v.reservedLiquidity) := by
  simp [Reserve.headroom, asI64]

/-- `next_liquidity_admission_closed`. -/
def nextLiquidityAdmissionClosed (currentlyClosed : Bool) (headroom buffer reopen : ℤ) : Bool :=
  if buffer ≤ 0 then false
  else if currentlyClosed then headroom < reopen
  else headroom < buffer

/-! ## Wallet windows -/

/-- `WALLET_WINDOW_SECS`. -/
def walletWindowSecs : ℤ := 86400

inductive WalletRole
  | source | destination
  deriving DecidableEq, Repr

namespace WalletRole

/-- The chain a direction puts this role on. The directions of
`wallet_window_directions_sql_in` are those that put it on the given chain. -/
def chain : WalletRole → Direction → Chain
  | source, d => d.sourceChain
  | destination, d => d.destinationChain

/-- The column that holds the wallet in this role. -/
def wallet : WalletRole → Request → Option Bytes
  | source, r => r.sourceWallet
  | destination, r => some r.recipient

def limitReason : WalletRole → ParkReason
  | source => .walletSourceLimit
  | destination => .walletDestinationLimit

end WalletRole

inductive WalletWindowScope
  | newRequest
  | excludingRequest (id : ℕ)
  | strictPredecessorOf (createdAt : ℤ) (id : ℕ)

/-- Which rows may block under a scope. -/
def WalletWindowScope.Counts : WalletWindowScope → ℕ → Request → Prop
  | newRequest, _, _ => True
  | excludingRequest own, id, _ => id ≠ own
  | strictPredecessorOf createdAt own, id, r =>
    r.createdAt < createdAt ∨ (r.createdAt = createdAt ∧ id < own)

instance (scope : WalletWindowScope) (id : ℕ) (r : Request) : Decidable (scope.Counts id r) :=
  match scope with
  | .newRequest => inferInstanceAs (Decidable True)
  | .excludingRequest _ => inferInstanceAs (Decidable (_ ≠ _))
  | .strictPredecessorOf _ _ => inferInstanceAs (Decidable (_ ∨ _ ∧ _))

namespace Ledger

/-- The rows that block `wallet` in its role on its chain. -/
def windowRows (l : Ledger) (chain : Chain) (role : WalletRole) (wallet : Bytes) (now : ℤ)
    (scope : WalletWindowScope) : List (ℕ × Request) :=
  l.requests.entries.filter fun e =>
    role.chain e.2.direction = chain ∧ role.wallet e.2 = some wallet ∧
      now - walletWindowSecs < e.2.createdAt ∧ scope.Counts e.1 e.2 ∧
      ¬ e.2.state.isRateLimitExcluded

/-- `wallet_window_blocker_created_at`: the newest blocking row. -/
def walletWindowBlockerCreatedAt (l : Ledger) (chain : Chain) (role : WalletRole)
    (wallet : Bytes) (now : ℤ) (scope : WalletWindowScope) : Option ℤ :=
  if wallet = [] then none
  else ((l.windowRows chain role wallet now scope).map fun e => e.2.createdAt).max?

/-- `wallet_window_retry_after_in`. -/
def walletWindowRetryAfter (l : Ledger) (chain : Chain) (role : WalletRole) (wallet : Bytes)
    (now : ℤ) (scope : WalletWindowScope) : Option ℤ :=
  (l.walletWindowBlockerCreatedAt chain role wallet now scope).map (· + walletWindowSecs)

end Ledger

structure RouteWalletEligibility where
  sourceRetryAfter : Option ℤ
  destinationRetryAfter : Option ℤ

/-- Source first. -/
def RouteWalletEligibility.blocker (e : RouteWalletEligibility) : Option WalletRole :=
  if e.sourceRetryAfter.isSome then some .source
  else if e.destinationRetryAfter.isSome then some .destination
  else none

/-- `route_wallet_eligibility_in`. -/
def Ledger.routeWalletEligibility (l : Ledger) (d : Direction) (source destination : Option Bytes)
    (now : ℤ) (scope : WalletWindowScope) : RouteWalletEligibility where
  sourceRetryAfter :=
    source.bind fun w => l.walletWindowRetryAfter d.sourceChain .source w now scope
  destinationRetryAfter :=
    destination.bind fun w => l.walletWindowRetryAfter d.destinationChain .destination w now scope

/-! ## The rapid-burst rule -/

namespace Ledger

/-- `SELECT COUNT(*) FROM bridge_requests … AND created_at > since AND
created_at <= now AND id <> excluded`. -/
def countRecent (l : Ledger) (since now : ℤ) (excluded : Option ℕ) (p : Request → Bool) : ℕ :=
  (l.requests.entries.filter fun e =>
    p e.2 ∧ since < e.2.createdAt ∧ e.2.createdAt ≤ now ∧ some e.1 ≠ excluded).length

/-- `u32::try_from(prior)…saturating_add(1) > limit`. -/
def burstExceeds (prior limit : ℕ) : Bool := limit < min (prior + 1) (2 ^ 32 - 1)

/-- `rapid_burst_verdict_in`: whether one of the four rules matches. -/
def rapidBurstVerdict (l : Ledger) (d : Direction) (source recipient : Option Bytes) (gross : ℕ)
    (now : ℤ) (scope : WalletWindowScope) : Bool :=
  match l.rapidBurstPolicy with
  | none => false
  | some policy =>
    let source := source.filter (· ≠ [])
    let recipient := recipient.filter (· ≠ [])
    let since := now - policy.windowSecs
    let excluded := match scope with
      | .excludingRequest id => some id
      | _ => none
    let count := l.countRecent since now excluded
    policy.enabled && (
      (match source, recipient with
        | some s, some r =>
          burstExceeds (count fun q => q.direction = d ∧ q.sourceWallet = some s ∧ q.recipient = r)
            policy.maxPerPair
        | _, _ => false) ||
      (match source with
        | some s =>
          burstExceeds (count fun q => q.direction.sourceChain = d.sourceChain ∧
            q.sourceWallet = some s) policy.maxPerSourceWallet
        | none => false) ||
      (match recipient with
        | some r =>
          burstExceeds (count fun q => q.direction.destinationChain = d.destinationChain ∧
            q.recipient = r) policy.maxPerDestinationWallet
        | none => false) ||
      (policy.capSizedMin ≠ 0 && policy.maxCapSizedPerWindow ≠ 0 && policy.capSizedMin ≤ gross &&
        burstExceeds (count fun q => q.direction = d ∧ policy.capSizedMin ≤ q.gross)
          policy.maxCapSizedPerWindow))

/-- `mark_rapid_burst_hold_in`, on a row that was just parked. -/
def markRapidBurstHold (l : Ledger) (r : Request) (now : ℤ) : Request :=
  { r.transition .manualReview with
    disposition := .rapidBurstHold
    holdNote := true
    reviewAfter := l.rapidBurstPolicy.map fun p => now + p.minimumReviewHoldSecs }

/-! ## The admission gates -/

/-- `unfinalized_goldcoin_deposit_exclusion`, unnegated. -/
def UnfinalizedDeposit (l : Ledger) (o : Outpoint) : Prop :=
  ∃ e ∈ l.requests.entries, e.2.direction.sourceIsGoldcoin ∧
    e.2.sourceTxid = some o.1 ∧ e.2.sourceVout = some o.2 ∧
    (e.2.state = .depositObserved ∨ e.2.state = .confirming)

instance (l : Ledger) (o : Outpoint) : Decidable (l.UnfinalizedDeposit o) :=
  inferInstanceAs (Decidable (∃ e ∈ l.requests.entries, _))

/-- `count_available_vault_utxos`. -/
def countAvailableVaultUtxos (l : Ledger) : ℕ :=
  (l.vault.utxos.entries.filter fun e =>
    e.2.state = .available ∧ ¬ l.UnfinalizedDeposit e.1 ∧ ¬ l.vault.LiveSplitClaim e.1).length

/-- Re-evaluate the hysteresis of the liquidity gate and write it back. -/
def evaluateLiquidityGate (l : Ledger) (d : ReserveDirection) : Ledger :=
  l.updateReserve d fun v => { v with
    liquidityAdmissionClosed := nextLiquidityAdmissionClosed v.liquidityAdmissionClosed v.headroom
      v.admissionBuffer v.admissionReopen }

end Ledger

structure InboundAdmissionGates where
  routeAdmissionClosed : Bool
  paused : Bool
  admissionClosed : Bool
  liquidityAdmissionClosed : Bool
  confirmedHeadroom : ℤ
  admissionBuffer : ℤ
  minAvailableUtxoCount : ℤ
  availableUtxoCount : ℤ

namespace InboundAdmissionGates

/-- The gates a deposit on `d` must pass, off the row `v` of its destination
reserve. -/
def read (l : Ledger) (d : Direction) (v : Reserve) : InboundAdmissionGates where
  routeAdmissionClosed := l.routeAdmissionClosed d
  paused := v.paused
  admissionClosed := v.admissionClosed
  liquidityAdmissionClosed := v.liquidityAdmissionClosed
  confirmedHeadroom := v.headroom
  admissionBuffer := v.admissionBuffer
  minAvailableUtxoCount :=
    if d.destinationReserve = .goldcoinReserve then v.utxoPoolMinAvailableCount else 0
  availableUtxoCount :=
    if d.destinationReserve = .goldcoinReserve ∧ 0 < v.utxoPoolMinAvailableCount then
      l.countAvailableVaultUtxos
    else 0

def utxoLiquidityOk (g : InboundAdmissionGates) : Prop :=
  g.minAvailableUtxoCount = 0 ∨ g.minAvailableUtxoCount < g.availableUtxoCount

instance (g : InboundAdmissionGates) : Decidable g.utxoLiquidityOk :=
  inferInstanceAs (Decidable (_ ∨ _))

def liquidityBufferOk (g : InboundAdmissionGates) (net : ℤ) : Prop :=
  g.admissionBuffer ≤ 0 ∨ g.admissionBuffer ≤ asI64 (g.confirmedHeadroom - net)

instance (g : InboundAdmissionGates) (net : ℤ) : Decidable (g.liquidityBufferOk net) :=
  inferInstanceAs (Decidable (_ ∨ _))

/-- The admission decision: the highest-ranked gate that refuses, by the
`manual_review_note` it parks under. -/
def blocker (g : InboundAdmissionGates) (net : ℤ) (limits : RouteWalletEligibility) :
    Option ParkReason :=
  if g.routeAdmissionClosed then some .routeAdmissionClosed
  else if g.admissionClosed then some .admissionClosed
  else if g.paused then some .paused
  else if limits.sourceRetryAfter.isSome then some .walletSourceLimit
  else if limits.destinationRetryAfter.isSome then some .walletDestinationLimit
  else if ¬ g.utxoLiquidityOk then some .utxoLiquidityLow
  else if g.liquidityAdmissionClosed ∨ ¬ g.liquidityBufferOk net then some .liquidityBufferLow
  else if g.confirmedHeadroom < net then some .insufficientCapacity
  else none

end InboundAdmissionGates

/-! ## New requests -/

/-- The figures of a bridge quote that the amounts of a request must equal. -/
structure Quote where
  grossIn : ℕ
  feeBps : ℕ
  feeOut : ℕ
  netOut : ℕ
  deriving DecidableEq

/-- Gross, fee and net of a request, as `u64`. -/
structure RequestAmounts where
  gross : ℕ
  feeBps : ℕ
  fee : ℕ
  net : ℕ
  netDestination : ℕ
  quote : Option Quote
  deriving DecidableEq

/-- `QuoteColumns::for_new_request`: whether the row is quoted. -/
def RequestAmounts.quoteColumns (a : RequestAmounts) : Except LedgerError Bool :=
  match a.quote with
  | none => .ok false
  | some q =>
    if q.grossIn = a.gross ∧ q.feeBps = a.feeBps ∧ q.feeOut = a.fee ∧ q.netOut = a.net then .ok true
    else .error .bridgeQuote

/-- A row with the columns an insertion leaves at their defaults. -/
def Request.insert (d : Direction) (state : RequestState) (a : RequestAmounts) (recipient : Bytes)
    (now : ℤ) : Request where
  direction := d
  state := state
  gross := asI64 a.gross
  feeBps := asI64 a.feeBps
  feeAmount := asI64 a.fee
  netAmount := asI64 a.net
  netDestination := asI64 a.netDestination
  recipient := recipient
  requester := none
  sourceWallet := none
  createdAt := now
  reservationExpiresAt := none
  sourceTxid := none
  sourceVout := none
  sourceBlockHeight := none
  sourceBlockHash := none
  sourceConfirmations := 0
  sourceFinalizedAt := none
  sourceContract := none
  sourceObligationIndex := none
  destinationTxid := none
  manualReviewNote := none
  observedAmount := none
  quoted := false
  quoteLockedAt := none
  disposition := .normal
  holdNote := false
  operatorDecision := none
  reviewAfter := none
  stateLog := [(none, state)]
  solanaRefund := none
  goldcoinRefund := none
  goldcoinPayout := none
  robinhoodTx := fun _ => none
  releaseAttested := false
  closure := none

namespace Ledger

/-- The unique index on `(source_txid, source_vout)`. -/
def SourceOutpointTaken (l : Ledger) (own : Option ℕ) (txid : Txid) (vout : ℕ) : Prop :=
  ∃ e ∈ l.requests.entries, some e.1 ≠ own ∧ e.2.sourceTxid = some txid ∧ e.2.sourceVout = some vout

instance (l : Ledger) (own : Option ℕ) (txid : Txid) (vout : ℕ) :
    Decidable (l.SourceOutpointTaken own txid vout) :=
  inferInstanceAs (Decidable (∃ e ∈ l.requests.entries, _))

/-- `create_request_from`. A refused request leaves no trace. -/
def createRequestFrom (l : Ledger) (d : Direction) (a : RequestAmounts) (recipient : Bytes)
    (requester sourceWallet : Option Bytes) (ttl now : ℤ) : Except LedgerError Ledger := do
  let quoted ← a.quoteColumns
  let v ← l.reserve d.destinationReserve
  if v.paused then return l
  if l.routeAdmissionClosed d then return l
  let sourceWallet := sourceWallet.filter (· ≠ [])
  let eligibility := l.routeWalletEligibility d sourceWallet (some recipient) now .newRequest
  if eligibility.blocker.isSome then return l
  if v.headroom < asI64 a.netDestination then return l
  require (0 < asI64 a.gross) .constraintViolated
  return (l.insertRequest { Request.insert d .liquidityReserved a recipient now with
      state := .awaitingDeposit
      stateLog := [(none, .liquidityReserved), (some .liquidityReserved, .awaitingDeposit)]
      requester := requester
      sourceWallet := sourceWallet
      reservationExpiresAt := some (now + ttl)
      quoted := quoted }).addReserved d.destinationReserve (asI64 a.netDestination)

/-- What a final deposit records about its source. -/
structure DepositSource where
  wallet : Bytes
  requester : Option Bytes
  contract : ℕ
  obligationIndex : ℕ
  outpoint : Option (Txid × ℕ)
  blockHeight : Option ℤ

/-- Why a fold parks, the most specific first. `none` admits. -/
def foldNote (burst : Bool) (refusal : Option FoldRefusal) (destination : Option Bytes)
    (routeOpen : Bool) (blocker : Option ParkReason) : Option ParkReason :=
  if burst then some .rapidBurstHold
  else if refusal.isSome then refusal.map FoldRefusal.reason
  else if destination.isNone then some .undeliverableDestination
  else if ¬ routeOpen then some .routeDisabled
  else blocker

/-- The part the three folds share, from the gates to the insertion. -/
def foldDeposit (l : Ledger) (d : Direction) (a : RequestAmounts) (quoted : Bool)
    (src : DepositSource) (destination : Option Bytes) (recipient : Bytes) (routeOpen : Bool)
    (refusal : Option FoldRefusal) (now : ℤ) : Except LedgerError Ledger := do
  let reserve := d.destinationReserve
  let l := l.evaluateLiquidityGate reserve
  let v ← l.reserve reserve
  let limits := l.routeWalletEligibility d (some src.wallet) destination now .newRequest
  let blocker := (InboundAdmissionGates.read l d v).blocker (asI64 a.netDestination) limits
  let burst := l.rapidBurstVerdict d (some src.wallet) destination a.gross now .newRequest
  let note := foldNote burst refusal destination routeOpen blocker
  require (0 < asI64 a.gross) .constraintViolated
  require (src.wallet ≠ []) .constraintViolated
  require (∀ o ∈ src.outpoint, ¬ l.SourceOutpointTaken none o.1 o.2) .constraintViolated
  let r := { Request.insert d (if note.isNone then .sourceFinalized else .manualReview) a recipient now with
    requester := src.requester
    sourceWallet := some src.wallet
    sourceTxid := src.outpoint.map Prod.fst
    sourceVout := src.outpoint.map Prod.snd
    sourceBlockHeight := src.blockHeight
    sourceConfirmations := 1
    sourceFinalizedAt := some now
    sourceContract := some src.contract
    sourceObligationIndex := some src.obligationIndex
    manualReviewNote := note
    quoted := quoted
    quoteLockedAt := if quoted then some now else none }
  let l := l.insertRequest (if burst then l.markRapidBurstHold r now else r)
  return if note.isNone then l.addObligation reserve (asI64 a.netDestination) else l

/-- A Solana obligation index folds once, whichever route it is bound for. -/
def SolanaObligationFolded (l : Ledger) (index : ℕ) : Prop :=
  ∃ e ∈ l.requests.entries, e.2.direction.sourceIsSolana ∧ e.2.sourceObligationIndex = some index

instance (l : Ledger) (index : ℕ) : Decidable (l.SolanaObligationFolded index) :=
  inferInstanceAs (Decidable (∃ e ∈ l.requests.entries, _))

/-- `PROGRAM_ID_BYTES`, the contract of every Solana deposit. -/
def solanaProgram : ℕ := 0

def solanaSource (requester : Bytes) (index : ℕ) : DepositSource where
  wallet := requester
  requester := some requester
  contract := solanaProgram
  obligationIndex := index
  outpoint := none
  blockHeight := none

/-- `fold_sol_deposit`: the destination is the payload as deposited. -/
def foldSolDeposit (l : Ledger) (index : ℕ) (a : RequestAmounts) (requester recipient : Bytes)
    (refusal : Option FoldRefusal) (now : ℤ) : Except LedgerError Ledger := do
  let quoted ← a.quoteColumns
  if l.SolanaObligationFolded index then return l
  l.foldDeposit .solToGlc a quoted (solanaSource requester index) (some recipient) recipient true
    refusal now

/-- `fold_sol_deposit_to_robinhood`. -/
def foldSolDepositToRobinhood (l : Ledger) (index : ℕ) (a : RequestAmounts) (requester : Bytes)
    (recipientEvm : Option Bytes) (rawDestination : Bytes) (routeOpen : Bool)
    (refusal : Option FoldRefusal) (now : ℤ) : Except LedgerError Ledger := do
  require (a.netDestination = a.net) .panicked
  let quoted ← a.quoteColumns
  if l.SolanaObligationFolded index then return l
  l.foldDeposit .solToRhn a quoted (solanaSource requester index) recipientEvm
    (recipientEvm.getD rawDestination) routeOpen refusal now

/-- A row of `robinhood_deposit_observations`. -/
structure RobinhoodObservation where
  direction : Direction
  obligationIndex : ℕ
  sourceContract : ℕ
  depositor : Bytes
  destination : Bytes
  txHash : Txid
  logIndex : ℕ
  blockNumber : ℤ

def RobinhoodObligationFolded (l : Ledger) (contract index : ℕ) : Prop :=
  ∃ e ∈ l.requests.entries, e.2.direction.sourceIsRobinhood ∧
    e.2.sourceContract = some contract ∧ e.2.sourceObligationIndex = some index

instance (l : Ledger) (contract index : ℕ) : Decidable (l.RobinhoodObligationFolded contract index) :=
  inferInstanceAs (Decidable (∃ e ∈ l.requests.entries, _))

/-- `fold_robinhood_deposit`. Only an `RhnToSol` row records the transaction
hash and log index of its deposit. -/
def foldRobinhoodDeposit (l : Ledger) (obs : RobinhoodObservation) (a : RequestAmounts)
    (destination : Option Bytes) (routeOpen : Bool) (refusal : Option FoldRefusal) (now : ℤ) :
    Except LedgerError Ledger := do
  require (obs.direction.sourceIsRobinhood) (.robinhoodTxInvalid 0)
  require (obs.direction = .rhnToGlc → a.netDestination = a.net) .panicked
  let quoted ← a.quoteColumns
  if l.RobinhoodObligationFolded obs.sourceContract obs.obligationIndex then return l
  require (obs.direction = .rhnToSol → obs.logIndex < 2 ^ 32) (.robinhoodTxInvalid 0)
  l.foldDeposit obs.direction a quoted
    { wallet := obs.depositor
      requester := none
      contract := obs.sourceContract
      obligationIndex := obs.obligationIndex
      outpoint := if obs.direction = .rhnToSol then some (obs.txHash, obs.logIndex) else none
      blockHeight := some obs.blockNumber }
    destination (destination.getD obs.destination) routeOpen refusal now

end Ledger

end Service
