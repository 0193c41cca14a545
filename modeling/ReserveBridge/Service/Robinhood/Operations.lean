-- SUMMARY: The writers of the Robinhood operation rows and of the submitter's nonce, each a transaction that is refused or commits, and the runs of them.
import ReserveBridge.Lib.Run
import ReserveBridge.Service.Robinhood.Types

/-!
# Operations on Robinhood: the writers

`service/src/ledger/robinhood_tx.rs`, up to
`mark_robinhood_tx_manual_review`. A call that fails, for its own checks or for
the constraints of the schema, rolls back.
-/

namespace Service.Robinhood
open Guard

/-! ## A new row -/

/-- `NewRobinhoodTx`. -/
structure NewTx where
  kind : TxKind
  requestId : Option ℕ
  rebalanceRequestId : Option ℕ
  route : Option Direction
  bridgeContract : ℕ
  chainId : ℕ
  contractRequestId : ℕ
  obligationIndex : Option ℕ
  recipient : Option ℕ
  amountRobinhood : Option ℕ
  signerEpoch : ℕ
  expiry : ℕ
  authDigest : ℕ
  deriving DecidableEq, Repr

namespace NewTx

/-- It names what its kind settles, and no other subject. -/
def hasItsSubject (new : NewTx) : Prop :=
  (new.kind.settlesABridgeRequest ↔ new.requestId.isSome) ∧
    (new.kind.settlesABridgeRequest ↔ ¬ new.rebalanceRequestId.isSome) ∧
    (new.kind.settlesABridgeRequest ↔ new.route.isSome)

instance (new : NewTx) : Decidable new.hasItsSubject := inferInstanceAs (Decidable (_ ∧ _))

/-- The columns as they are stored. -/
def payload (new : NewTx) : Payload where
  kind := new.kind
  requestId := new.requestId
  rebalanceRequestId := new.rebalanceRequestId
  route := new.route
  bridgeContract := new.bridgeContract
  chainId := asI64 new.chainId
  action := new.kind.action
  contractRequestId := new.contractRequestId
  obligationIndex := new.obligationIndex.map fun i : ℕ => asI64 i
  recipient := new.recipient
  amountRobinhood := new.amountRobinhood
  signerEpoch := asI64 new.signerEpoch
  expiry := asI64 new.expiry
  authDigest := new.authDigest

/-- The row as it is inserted. -/
def row (new : NewTx) (now : ℤ) : Tx where
  toPayload := new.payload
  state := .authorizing
  signatures := []
  submitter := none
  nonce := none
  envelope := none
  gasLimit := none
  feeSummary := none
  rawTx := none
  txHash := none
  firstBroadcastAt := none
  lastBroadcastAt := none
  broadcastAttempts := 0
  replacementAttempts := 0
  receiptStatus := none
  receiptBlockNumber := none
  receiptBlockHash := none
  confirmations := 0
  finalizedAt := none
  failureReason := none
  createdAt := now
  updatedAt := now

end NewTx

/-! ## The updates of a row -/

namespace Tx

/-- The quorum is stored. -/
def authorize (t : Tx) (signatures : List (ℕ × ℕ)) (now : ℤ) : Tx :=
  { t with state := .authorized, signatures := signatures, updatedAt := now }

def allocate (t : Tx) (submitter : ℕ) (nonce now : ℤ) : Tx :=
  { t with submitter := some submitter, nonce := some nonce, updatedAt := now }

def sign (t : Tx) (envelope : String) (gasLimit : ℤ) (feeSummary : String) (rawTx : Bytes)
    (txHash : ℕ) (now : ℤ) : Tx :=
  { t with
    envelope := some envelope
    gasLimit := some gasLimit
    feeSummary := some feeSummary
    rawTx := some rawTx
    txHash := some txHash
    state := .signed
    updatedAt := now }

/-- One more broadcast. -/
def send (t : Tx) (now : ℤ) : Tx :=
  { t with
    state := .broadcast
    firstBroadcastAt := some (t.firstBroadcastAt.getD now)
    lastBroadcastAt := some now
    broadcastAttempts := t.broadcastAttempts + 1
    updatedAt := now }

/-- The same nonce at a higher fee. -/
def replace (t : Tx) (feeSummary : String) (rawTx : Bytes) (txHash : ℕ) (now : ℤ) : Tx :=
  { t with
    feeSummary := some feeSummary
    rawTx := some rawTx
    txHash := some txHash
    replacementAttempts := t.replacementAttempts + 1
    updatedAt := now }

def park (t : Tx) (reason : FailureReason) (now : ℤ) : Tx :=
  { t with state := .manualReview, failureReason := some reason, updatedAt := now }

/-- A receipt is recorded. -/
def mined (t : Tx) (success : Bool) (blockNumber : ℤ) (blockHash : ℕ) (now : ℤ) : Tx :=
  { t with
    state := if success then .included else .reverted
    receiptStatus := some success
    receiptBlockNumber := some blockNumber
    receiptBlockHash := some blockHash
    failureReason := if success then none else some .minedAndReverted
    updatedAt := now }

def confirm (t : Tx) (confirmations now : ℤ) : Tx :=
  { t with confirmations := confirmations, updatedAt := now }

def finalize (t : Tx) (now : ℤ) : Tx := { t with state := .finalized, finalizedAt := some now }

end Tx

/-! ## Creation of an operation -/

/-- `BeginTxOutcome`. -/
inductive BeginTxOutcome
  | created (id : ℕ)
  | exists (id : ℕ)
  deriving DecidableEq, Repr

/-- The id of the operation, new or not. -/
def BeginTxOutcome.id : BeginTxOutcome → ℕ
  | .created id | .exists id => id

namespace Tables

/-- `get_robinhood_tx_for`, with the id. -/
def txFor (T : Tables) (kind : TxKind) (requestId : ℕ) : Option (ℕ × Tx) :=
  T.transactions.rows.entries.find? fun e => e.2.kind = kind ∧ e.2.requestId = some requestId

/-- `get_robinhood_tx_for_rebalance`, with the id. -/
def txForRebalance (T : Tables) (rebalanceRequestId : ℕ) : Option (ℕ × Tx) :=
  T.transactions.rows.entries.find? fun e => e.2.rebalanceRequestId = some rebalanceRequestId

/-- The row of the same kind for the same subject. -/
def existing (T : Tables) (new : NewTx) : Option (ℕ × Tx) :=
  match new.requestId, new.rebalanceRequestId with
  | some requestId, _ => T.txFor new.kind requestId
  | none, some rebalanceRequestId => T.txForRebalance rebalanceRequestId
  | none, none => none

/-- `begin_robinhood_tx`. -/
def beginTx (T : Tables) (new : NewTx) (now : ℤ) : Except TxError (BeginTxOutcome × Tables) := do
  require new.hasItsSubject (.invalid 0 (.subject new.kind))
  match T.existing new with
  | some (id, _) => return (.exists id, T)
  | none =>
    -- the references, and the constraints of the row
    require (∀ id ∈ new.requestId, id ∈ T.bridgeRequests) .constraint
    require (∀ id ∈ new.rebalanceRequestId, id ∈ T.rebalanceRequests) .constraint
    let transactions ← orFail (T.transactions.insert (new.row now)) .constraint
    return (.created T.transactions.rows.nextKey, { T with transactions := transactions })

/-! ## Authorization -/

/-- `record_robinhood_authorization`. -/
def recordAuthorization (T : Tables) (id : ℕ) (signatures : List (ℕ × ℕ)) (now : ℤ) :
    Except TxError Tables := do
  require (signatures.length = 2) (.invalid id (.notAQuorum signatures.length))
  require (signatures.map Prod.fst).Nodup (.invalid id .sameSigner)
  let t ← T.tx id
  if t.signatures ≠ [] then
    require (t.signatures = signatures) (.invalid id .otherAuthorization)
    return T
  require (t.state = .authorizing) (.wrongState id .authorizing t.state)
  T.setTx id (t.authorize signatures now)

/-! ## The submitter and its nonce -/

/-- `SELECT observed_nonce FROM evm_submitter_state`. -/
def observedNonce (T : Tables) (submitter : ℕ) (chainId : ℤ) : Option ℤ :=
  (T.submitters.get? (submitter, chainId)).map SubmitterState.observedNonce

/-- `SELECT MAX(nonce) FROM robinhood_transactions`. -/
def highestNonce (T : Tables) (submitter : ℕ) (chainId : ℤ) : Option ℤ :=
  (T.transactions.rows.entries.filterMap fun e =>
    if e.2.submitter = some submitter ∧ e.2.chainId = chainId then e.2.nonce else none).max?

/-- `record_evm_submitter_nonce`. -/
def recordSubmitterNonce (T : Tables) (submitter chainId observed : ℕ) (now : ℤ) :
    Except TxError (ℕ × Tables) := do
  let chain := asI64 chainId
  let highest := max ((T.observedNonce submitter chain).getD 0) (asI64 observed)
  -- the checks of the table; the maximum is not below 0
  require (0 < chain) .constraint
  return (asU64 highest, { T with
    submitters := T.submitters.upsert (submitter, chain) ⟨highest, now⟩ fun _ => ⟨highest, now⟩ })

/-- One above every recorded nonce, and not below the observed count. -/
def nextNonce (T : Tables) (submitter : ℕ) (chainId : ℤ) : ℤ :=
  max (((T.highestNonce submitter chainId).map fun n => asI64 (n + 1)).getD 0)
    ((T.observedNonce submitter chainId).getD 0)

/-- `allocate_robinhood_nonce`. -/
def allocateNonce (T : Tables) (id submitter chainId : ℕ) (now : ℤ) :
    Except TxError (ℕ × Tables) := do
  let t ← T.tx id
  require (t.chainId = asI64 chainId) (.invalid id (.otherChain t.chainId chainId))
  match t.nonce with
  | some n =>
    require (t.submitter = some submitter) (.invalid id .otherSubmitter)
    return (asU64 n, T)
  | none =>
    require (t.state = .authorized) (.wrongState id .authorized t.state)
    let next := T.nextNonce submitter t.chainId
    let T' ← T.setTx id (t.allocate submitter next now)
    return (asU64 next, T')

/-! ## Signed bytes -/

/-- `record_robinhood_signed`. -/
def recordSigned (T : Tables) (id : ℕ) (envelope : String) (gasLimit : ℕ) (feeSummary : String)
    (rawTx : Bytes) (txHash : ℕ) (now : ℤ) : Except TxError Tables := do
  let t ← T.tx id
  match t.rawTx with
  | some stored =>
    require (stored = rawTx) (.invalid id .otherBytes)
    return T
  | none =>
    require (t.state = .authorized) (.wrongState id .authorized t.state)
    T.setTx id (t.sign envelope (asI64 gasLimit) feeSummary rawTx txHash now)

/-- `record_robinhood_broadcast`. -/
def recordBroadcast (T : Tables) (id : ℕ) (now : ℤ) : Except TxError Tables := do
  let t ← T.tx id
  require (t.state = .signed ∨ t.state = .broadcast) (.wrongState id .signed t.state)
  T.setTx id (t.send now)

/-- `record_robinhood_replacement`. -/
def recordReplacement (T : Tables) (id : ℕ) (feeSummary : String) (rawTx : Bytes) (txHash : ℕ)
    (now : ℤ) : Except TxError Tables := do
  let t ← T.tx id
  require (t.state = .broadcast) (.wrongState id .broadcast t.state)
  require t.nonce.isSome (.invalid id .noNonce)
  T.setTx id (t.replace feeSummary rawTx txHash now)

/-! ## Receipts -/

/-- `is_terminal`. -/
def isTerminal : RobinhoodTxState → Bool
  | .finalized | .reverted | .manualReview => true
  | _ => false

/-- `record_robinhood_receipt`. A receipt in another block is looked at before
the state is. -/
def recordReceipt (T : Tables) (id : ℕ) (success : Bool) (blockNumber blockHash : ℕ) (now : ℤ) :
    Except TxError (RobinhoodTxState × Tables) := do
  let t ← T.tx id
  match t.receiptBlockNumber.filter fun stored => stored ≠ asI64 blockNumber with
  | some stored =>
    let T' ← T.setTx id (t.park (.receiptMoved stored blockNumber) now)
    return (.manualReview, T')
  | none =>
    if isTerminal t.state then return (t.state, T)
    require (t.state = .broadcast ∨ t.state = .included) (.wrongState id .broadcast t.state)
    let T' ← T.setTx id (t.mined success (asI64 blockNumber) blockHash now)
    return (if success then .included else .reverted, T')

/-- `update_robinhood_confirmations`. Returns whether the row was promoted. -/
def updateConfirmations (T : Tables) (id : ℕ) (confirmations : ℤ) (required : ℕ) (now : ℤ) :
    Except TxError (Bool × Tables) := do
  let t ← T.tx id
  if t.state = .finalized then
    let T' ← T.setTx id (t.confirm confirmations now)
    return (false, T')
  require (t.state = .included) (.wrongState id .included t.state)
  let promote := decide (asI64 required ≤ confirmations)
  let confirmed := t.confirm confirmations now
  let T' ← T.setTx id (if promote then confirmed.finalize now else confirmed)
  return (promote, T')

/-- `mark_robinhood_tx_manual_review`. -/
def markManualReview (T : Tables) (id : ℕ) (reason : String) (now : ℤ) :
    Except TxError Tables := do
  let t ← T.tx id
  require (t.state ≠ .finalized) (.invalid id .finalized)
  T.setTx id (t.park (.given reason) now)

end Tables

/-! ## Runs -/

inductive Op
  | beginTx (new : NewTx) (now : ℤ)
  | recordAuthorization (id : ℕ) (signatures : List (ℕ × ℕ)) (now : ℤ)
  | recordSubmitterNonce (submitter chainId observed : ℕ) (now : ℤ)
  | allocateNonce (id submitter chainId : ℕ) (now : ℤ)
  | recordSigned (id : ℕ) (envelope : String) (gasLimit : ℕ) (feeSummary : String)
      (rawTx : Bytes) (txHash : ℕ) (now : ℤ)
  | recordBroadcast (id : ℕ) (now : ℤ)
  | recordReplacement (id : ℕ) (feeSummary : String) (rawTx : Bytes) (txHash : ℕ) (now : ℤ)
  | recordReceipt (id : ℕ) (success : Bool) (blockNumber blockHash : ℕ) (now : ℤ)
  | updateConfirmations (id : ℕ) (confirmations : ℤ) (required : ℕ) (now : ℤ)
  | markManualReview (id : ℕ) (reason : String) (now : ℤ)
  /-- A row of `bridge_requests` is created. -/
  | requestCreated (id : ℕ)
  /-- A row of `rebalance_requests` is created. -/
  | rebalanceCreated (id : ℕ)
  deriving DecidableEq, Repr

namespace Tables

/-- One call. -/
def apply (T : Tables) : Op → Except TxError Tables
  | .beginTx new now => return (← T.beginTx new now).2
  | .recordAuthorization id signatures now => T.recordAuthorization id signatures now
  | .recordSubmitterNonce submitter chainId observed now =>
    return (← T.recordSubmitterNonce submitter chainId observed now).2
  | .allocateNonce id submitter chainId now => return (← T.allocateNonce id submitter chainId now).2
  | .recordSigned id envelope gasLimit feeSummary rawTx txHash now =>
    T.recordSigned id envelope gasLimit feeSummary rawTx txHash now
  | .recordBroadcast id now => T.recordBroadcast id now
  | .recordReplacement id feeSummary rawTx txHash now =>
    T.recordReplacement id feeSummary rawTx txHash now
  | .recordReceipt id success blockNumber blockHash now =>
    return (← T.recordReceipt id success blockNumber blockHash now).2
  | .updateConfirmations id confirmations required now =>
    return (← T.updateConfirmations id confirmations required now).2
  | .markManualReview id reason now => T.markManualReview id reason now
  | .requestCreated id => return { T with bridgeRequests := id :: T.bridgeRequests }
  | .rebalanceCreated id => return { T with rebalanceRequests := id :: T.rebalanceRequests }

def step (T : Tables) (op : Op) : Option Tables := (T.apply op).toOption

/-- The tables after the calls of `ops`, in order. -/
def run (T : Tables) (ops : List Op) : Tables := Run.final step T ops

/-- The tables after `ops`, from empty tables. -/
def after (ops : List Op) : Tables := run .empty ops

/-- A payout of one unit. -/
def samplePayout (requestId : ℕ) : NewTx where
  kind := .payout
  requestId := some requestId
  rebalanceRequestId := none
  route := some .glcToRhn
  bridgeContract := 1
  chainId := 46630
  contractRequestId := requestId
  obligationIndex := none
  recipient := some 2
  amountRobinhood := some 1
  signerEpoch := 0
  expiry := 2000
  authDigest := requestId

/-- Two payouts, authorized and numbered. -/
def sampleOps : List Op :=
  [.requestCreated 1, .requestCreated 2, .beginTx (samplePayout 1) 100,
    .beginTx (samplePayout 2) 100, .recordAuthorization 1 [(1, 11), (2, 12)] 101,
    .recordAuthorization 2 [(2, 13), (3, 14)] 101, .recordSubmitterNonce 9 46630 7 102,
    .allocateNonce 1 9 46630 103, .allocateNonce 2 9 46630 104]

end Tables

end Service.Robinhood
