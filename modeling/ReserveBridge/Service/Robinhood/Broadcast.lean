-- SUMMARY: The broadcast and receipt phases of the Robinhood settlement engine, row by row and tick by tick, with the node's answers and the points the process may stop at.
import ReserveBridge.Service.Robinhood.Settler

/-!
# The settlement engine: broadcast and receipts

Phases 3 and 4 of `service/src/robinhood/settlement.rs`, with
`service/src/robinhood/submitter.rs`. What the contract, the node and the
chain-terminal proof answer is given with each tick. So is where the process
stops: after how many steps of a row, where a step is a transaction of the
ledger or a question to the node. A process that stops at a row makes no step
with the rows behind it.
-/

namespace Service.Robinhood
open Guard

/-! ## Fees -/

inductive TxEnvelope
  | legacy | eip1559
  deriving DecidableEq, Repr

def TxEnvelope.asStr : TxEnvelope → String
  | legacy => "legacy"
  | eip1559 => "eip1559"

inductive TxFees
  | legacy (gasPrice : ℕ)
  | eip1559 (maxFeePerGas maxPriorityFeePerGas : ℕ)
  deriving DecidableEq, Repr

/-- `describe_fees`. -/
def describeFees : TxFees → String
  | .legacy gasPrice => s!"legacy gasPrice={gasPrice}"
  | .eip1559 maxFeePerGas maxPriorityFeePerGas =>
    s!"eip1559 maxFeePerGas={maxFeePerGas} maxPriorityFeePerGas={maxPriorityFeePerGas}"

def u128Max : ℕ := 2 ^ 128 - 1

def satAdd (a b : ℕ) : ℕ := min (a + b) u128Max

/-- `bump_fee`. -/
def bumpFee (fee : ℕ) : ℕ → ℕ
  | 0 => fee
  | bumps + 1 =>
    let value := bumpFee fee bumps
    satAdd (satAdd value (value / 8)) 1

/-! ## The submitter -/

/-- The submitter with its configuration. `sign` returns the bytes and their
hash. -/
structure Submitter where
  address : ℕ
  envelope : TxEnvelope
  maxFeePerGas : ℕ
  priorityFee : ℕ
  maxGasLimit : UInt64
  gasLimitMarginPercent : ℕ
  minBalance : ℕ
  maxReplacements : ℕ
  rebroadcastAfter : ℕ
  requiredConfirmations : UInt64
  sign : ℕ → ℕ → TxFees → EvmCall → Bytes × ℕ

/-- `EvmBroadcastOutcome`. -/
inductive BroadcastOutcome
  | accepted | alreadyKnown | nonceTooLow | replacementUnderpriced
  | rejected (code : ℤ)
  deriving DecidableEq, Repr

/-- What `ContractGate` finds. -/
inductive GateVerdict
  | passes
  | alreadyExecuted
  /-- Another refusal, or a read that failed. -/
  | fails
  deriving DecidableEq, Repr

/-- Where the chain-terminal proof found the settlement. -/
structure Landed where
  txHash : ℕ
  blockNumber : ℕ
  blockHash : ℕ
  confirmations : ℤ
  deriving DecidableEq, Repr

/-- `reconcile_settlement::Verdict`. -/
inductive Verdict
  | safeToReconcile (landed : Landed)
  | alreadyReconciled
  | refuse (reason : String)
  deriving DecidableEq, Repr

/-- What is answered while one row is broadcast. A question that fails has no
answer. -/
structure SendAnswers where
  gate : GateVerdict
  verdict : Option Verdict
  balance : Option ℕ
  estimate : Option UInt64
  baseFee : Option (Option ℕ)
  gasPrice : Option ℕ
  priorityFee : Option (Option ℕ)
  outcome : Option BroadcastOutcome

namespace Submitter

/-- `gas_limit_for`. -/
def gasLimitFor (u : Submitter) (estimate : UInt64) : ℕ :=
  max (min (min (estimate.toNat * u.gasLimitMarginPercent / 100) (2 ^ 64 - 1)) u.maxGasLimit.toNat) 1

/-- `read_fees`. -/
def readFees (u : Submitter) (w : SendAnswers) (bump : ℕ) : Option TxFees :=
  match u.envelope, w.baseFee with
  | _, none => none
  | .eip1559, some none | .legacy, some (some _) => none
  | .legacy, some none => do
    let suggested ← w.gasPrice
    let bumped := bumpFee suggested bump
    if u.maxFeePerGas < bumped then none else some (.legacy bumped)
  | .eip1559, some (some base) => do
    let tip ← w.priorityFee
    let tip := bumpFee (max (tip.getD u.priorityFee) u.priorityFee) bump
    let maxFee := bumpFee (satAdd (min (base * 2) u128Max) tip) bump
    if u.maxFeePerGas < maxFee then none else some (.eip1559 maxFee (min tip maxFee))

/-- `replacement_due`, or that the budget is exhausted. -/
def replacementDue (u : Submitter) (t : Tx) (now : ℤ) : Option Bool :=
  if t.state ≠ .broadcast then some false
  else match t.lastBroadcastAt with
    | none => some false
    | some last =>
      if now - last < asI64 u.rebroadcastAfter then some false
      else if (u.maxReplacements : ℤ) ≤ t.replacementAttempts then none
      else some true

end Submitter

/-- `UNRESOLVED_BROADCAST_INCIDENT_SECS`. -/
def unresolvedBroadcastIncidentSecs : ℤ := 30 * 60

/-- `broadcast_is_stale`. -/
def broadcastIsStale (t : Tx) (now : ℤ) : Bool :=
  t.firstBroadcastAt.any fun first => unresolvedBroadcastIncidentSecs ≤ now - first

/-! ## The daemon -/

/-- A question to the node about an operation. -/
inductive Exchange
  /-- `eth_sendRawTransaction`, under the operation's nonce. -/
  | sent (id : ℕ) (nonce : Option ℤ) (rawTx : Bytes)
  /-- `eth_getTransactionReceipt`. -/
  | receiptRead (id : ℕ) (txHash : ℕ)
  deriving DecidableEq, Repr

/-- The world, what the node was asked, and which operations were carried over
to their requests, latest first. -/
structure Daemon extends World where
  exchanges : List Exchange
  completed : List ℕ

def Daemon.empty : Daemon := ⟨.empty, [], []⟩

/-- The process gets to the `n`-th step. -/
def Reaches (stop : Option ℕ) (n : ℕ) : Prop := ∀ k ∈ stop, n ≤ k

instance (stop : Option ℕ) (n : ℕ) : Decidable (Reaches stop n) :=
  inferInstanceAs (Decidable (∀ k ∈ stop, _))

/-- The row as `reconcile_robinhood_settlement_from_chain` leaves it. -/
def Tx.reconcile (t : Tx) (landed : Landed) (now : ℤ) : Tx :=
  { t with
    state := .finalized
    txHash := some landed.txHash
    receiptStatus := some true
    receiptBlockNumber := some (asI64 landed.blockNumber)
    receiptBlockHash := some landed.blockHash
    confirmations := landed.confirmations
    finalizedAt := some now
    failureReason := some .chainTerminalReconciliation
    updatedAt := now }

/-- `reconcile_robinhood_settlement_from_chain`, on the row and on its request. -/
def World.reconcileFromChain (W : World) (id : ℕ) (landed : Landed) (now : ℤ) :
    Except SettlementError World := do
  let t ← (W.tables.tx id).mapError .tx
  require (t.kind = .settlement) .operation
  let requestId ← orFail t.requestId .operation
  let r ← (W.ledger.request requestId).mapError .ledger
  if t.state = .finalized ∧ r.state = .settled then return W
  require (t.state ≠ .reverted) .operation
  require (r.state = .destinationConfirmed) .operation
  let tables ← (W.tables.setTx id (t.reconcile landed now)).mapError .tx
  let ledger ← (W.ledger.robinhoodSettleConfirmed requestId).mapError .ledger
  return ⟨tables, ledger⟩

namespace Daemon

/-- The `n`-th step writes the tables, and `rest` goes on, unless the process
stops before it or the ledger refuses. -/
def write (D : Daemon) (stop : Option ℕ) (n : ℕ) (tables : Except TxError Tables)
    (rest : Daemon → Daemon) : Daemon :=
  if Reaches stop n then
    match tables with
    | .error _ => D
    | .ok T => rest { D with tables := T }
  else D

/-- A step that parks the operation. -/
def park (D : Daemon) (stop : Option ℕ) (n id : ℕ) (reason : String) (now : ℤ) : Daemon :=
  D.write stop n (D.tables.markManualReview id reason now) fun D => D

/-- `Submitter::broadcast`, up to the node's answer. Another submitter's bytes
are not sent. -/
def sends (D : Daemon) (u : Submitter) (id : ℕ) (t : Tx) : Option Daemon :=
  match t.rawTx with
  | none => none
  | some rawTx =>
    if t.submitter = some u.address then
      some { D with exchanges := .sent id t.nonce rawTx :: D.exchanges }
    else none

end Daemon

/-! ## The reasons of a park

A refusal is that of the chain-terminal proof, where there is one. -/

def expiredReason : String :=
  "the authorization expired before it was broadcast; it must be re-minted, which requires a " ++
    "fresh quorum"

/-- `record_robinhood_already_executed` and `record_robinhood_already_executed_unproven`. -/
def alreadyExecutedReason : Option String → String
  | none =>
    "the contract's replay guard reports this (action, requestId) as ALREADY EXECUTED, but this " ++
    "service never observed a successful receipt for it. The operation happened; only the local " ++
    "record of it is missing. Reconcile against the on-chain event before touching this request " ++
    "— do NOT re-authorize it."
  | some refusal =>
    s!"the contract's replay guard reports this (action, requestId) as ALREADY EXECUTED, but the " ++
    s!"chain-terminal proof did not hold: {refusal}. The local record is missing and could not " ++
    "be completed automatically — reconcile by hand (glc-admin " ++
    "robinhood-reconcile-settlement) after reading the refusal; do NOT re-authorize."

def proofRefusal : Option String → String
  | none => ""
  | some refusal => s!" Chain-terminal proof: {refusal}."

def staleReason (refusal : Option String) : String :=
  "this broadcast has been unresolved past the incident threshold: no receipt, and the " ++
    "operation could not be proven complete on chain." ++ proofRefusal refusal ++
  " Do NOT re-authorize it — determine what happened to the nonce first."

def budgetReason (u : Submitter) (id : ℕ) (t : Tx) (refusal : Option String) : String :=
  s!"operation {id} has been replaced " ++ toString t.replacementAttempts ++
  " times, at the configured budget of " ++ toString u.maxReplacements ++
  "; a transaction that will not mine after that many fee bumps is not a fee problem" ++
  proofRefusal refusal

/-- `as_str`. -/
def TxKind.asStr : TxKind → String
  | payout => "Payout"
  | settlement => "Settlement"
  | refund => "Refund"
  | treasuryWithdraw => "TreasuryWithdraw"

def revertedReason (t : Tx) (blockNumber : ℕ) : String :=
  "the " ++ t.kind.asStr ++ s!" transaction was mined in block {blockNumber} and REVERTED. It " ++
    "consumed its nonce and its gas and achieved nothing. Do not re-authorize until the " ++
    "contract-side precondition that failed is understood."

/-! ## Signing and sending -/

/-- What was cleared: the call, the gas limit and the fees. -/
structure Clearance where
  call : EvmCall
  gasLimit : ℕ
  fees : TxFees

namespace Settler

/-- The authorization has expired. -/
def expired (t : Tx) (now : ℤ) : Prop := (u64 t.expiry).toNat ≤ asU64 now

instance (t : Tx) (now : ℤ) : Decidable (expired t now) := inferInstanceAs (Decidable (_ ≤ _))

/-- The operation names what its gate is asked about. -/
def namesItsGate (t : Tx) : Prop :=
  if t.kind = .treasuryWithdraw then t.recipient.isSome else t.route.isSome

instance (t : Tx) : Decidable (namesItsGate t) := by
  unfold namesItsGate
  infer_instance

/-- What is asked after the gate, before a nonce: funding, gas and fees. -/
def clear (u : Submitter) (w : SendAnswers) (call : EvmCall) : Option Clearance := do
  let balance ← w.balance
  if balance < u.minBalance then none
  let estimate ← w.estimate
  let fees ← u.readFees w 0
  return ⟨call, u.gasLimitFor estimate, fees⟩

/-- `reconcile_from_chain_if_settled`, and the park when it is not proven. -/
def reconcileOrPark (D : Daemon) (id : ℕ) (t : Tx) (w : SendAnswers)
    (reason : Option String → String) (stop : Option ℕ) (now : ℤ) : Daemon :=
  if t.kind ≠ .settlement ∨ t.requestId = none then D.park stop 1 id (reason none) now
  else match w.verdict with
    | none | some .alreadyReconciled => D
    | some (.refuse refusal) => D.park stop 1 id (reason (some refusal)) now
    | some (.safeToReconcile landed) =>
      if Reaches stop 1 then
        match D.reconcileFromChain id landed now with
        | .error _ => D
        | .ok W => { D with toWorld := W, completed := id :: D.completed }
      else D

/-- From the nonce on: allocate, sign, send, and record. Whatever the node
answers, the broadcast is recorded. -/
def allocateAndSend (s : Settler) (u : Submitter) (D : Daemon) (id : ℕ) (c : Clearance)
    (stop : Option ℕ) (now : ℤ) : Daemon :=
  if Reaches stop 1 then
    match D.tables.allocateNonce id u.address s.chainId now with
    | .error _ => D
    | .ok (nonce, T) =>
      let signed := u.sign nonce c.gasLimit c.fees c.call
      { D with tables := T }.write stop 2 (T.recordSigned id u.envelope.asStr c.gasLimit
          (describeFees c.fees) signed.1 signed.2 now) fun D =>
        if Reaches stop 3 then
          match D.tables.transactions.get? id with
          | none => D
          | some refreshed =>
            let D := (D.sends u id refreshed).getD D
            D.write stop 4 (D.tables.recordBroadcast id now) fun D => D
        else D
  else D

/-- `sign_and_send`. -/
def signAndSend (s : Settler) (u : Submitter) (D : Daemon) (id : ℕ) (t : Tx) (w : SendAnswers)
    (stop : Option ℕ) (now : ℤ) : Daemon :=
  if expired t now then D.park stop 1 id expiredReason now
  else match s.buildCall t with
    | .error _ => D
    | .ok call =>
      if ¬ namesItsGate t then D
      else match w.gate with
        | .fails => D
        | .alreadyExecuted => reconcileOrPark D id t w alreadyExecutedReason stop now
        | .passes => match clear u w call with
          | none => D
          | some c => s.allocateAndSend u D id c stop now

/-- `rebroadcast_or_replace`. -/
def rebroadcastOrReplace (s : Settler) (u : Submitter) (D : Daemon) (id : ℕ) (t : Tx)
    (w : SendAnswers) (stop : Option ℕ) (now : ℤ) : Daemon :=
  if broadcastIsStale t now then reconcileOrPark D id t w staleReason stop now
  else match u.replacementDue t now with
    | some false =>
      if Reaches stop 1 then
        match D.sends u id t with
        | none => D
        | some D =>
          if w.outcome.isSome then D.write stop 2 (D.tables.recordBroadcast id now) fun D => D
          else D
      else D
    | some true => match s.buildCall t, t.nonce, u.readFees w (t.replacementAttempts.toNat + 1) with
      | .ok call, some nonce, some fees =>
        let signed := u.sign (asU64 nonce) (t.gasLimit.elim u.maxGasLimit.toNat asU64) fees call
        D.write stop 1 (D.tables.recordReplacement id (describeFees fees) signed.1 signed.2 now)
          fun D => if Reaches stop 2 then
            match (D.tables.transactions.get? id).bind fun refreshed => D.sends u id refreshed with
            | none => D
            | some D =>
              if w.outcome.isSome then D.write stop 3 (D.tables.recordBroadcast id now) fun D => D
              else D
          else D
      | _, _, _ => D
    | none => reconcileOrPark D id t w (budgetReason u id t) stop now

end Settler

/-! ## Receipts -/

/-- A receipt. -/
structure EvmReceipt where
  txHash : ℕ
  success : Bool
  blockNumber : ℕ
  blockHash : ℕ
  /-- There is a log of the bridge contract. -/
  fromBridge : Bool
  deriving DecidableEq, Repr

/-- What is answered while one row is polled: the receipt, and `requestExecuted`
at its block. -/
structure PollAnswers where
  receipt : Option (Option EvmReceipt)
  executed : Option Bool

namespace Settler

/-- `on_finalized`. The subject of a withdrawal is a rebalance. -/
def onFinalized (D : Daemon) (id : ℕ) (t : Tx) : Except SettlementError Daemon :=
  if t.kind = .treasuryWithdraw then .ok { D with completed := id :: D.completed }
  else do
    let requestId ← orFail t.requestId .operation
    let ledger ← (match t.kind with
      | .payout => D.ledger.markRobinhoodPayoutSettled requestId
      | .settlement => D.ledger.robinhoodSettleConfirmed requestId
      | .refund => D.ledger.markRobinhoodRefundConfirmed requestId
      | .treasuryWithdraw => .ok D.ledger).mapError .ledger
    return { D with ledger := ledger, completed := id :: D.completed }

/-- `on_reverted`. -/
def onReverted (D : Daemon) (t : Tx) : Except SettlementError Daemon :=
  if t.kind = .treasuryWithdraw then .ok D
  else do
    let requestId ← orFail t.requestId .operation
    let kind := match t.kind with
      | .payout | .treasuryWithdraw => RobinhoodTxKind.payout
      | .settlement => .settlement
      | .refund => .refund
    let ledger ← (D.ledger.markRobinhoodRequestManualReview requestId (.reverted kind)).mapError .ledger
    return { D with ledger := ledger }

/-- `verify_operation_effect`. -/
def verifyOperationEffect (receipt : EvmReceipt) (w : PollAnswers) : Bool :=
  receipt.fromBridge && w.executed = some true

/-- A step that writes the ledger. -/
def finishes (D : Daemon) (stop : Option ℕ) (n : ℕ) (x : Except SettlementError Daemon) : Daemon :=
  if Reaches stop n then x.toOption.getD D else D

/-- The depth of a block under the head: one in the head block, and none when the
head is behind it. -/
def confirmationsAt (head blockNumber : ℕ) : ℤ :=
  if blockNumber ≤ head then asI64 (head - blockNumber + 1) else 0

/-- A receipt of the tracked transaction is recorded, and followed up. -/
def recordReceipt (u : Submitter) (D : Daemon) (id : ℕ) (t : Tx) (receipt : EvmReceipt)
    (w : PollAnswers) (head : ℕ) (stop : Option ℕ) (now : ℤ) : Daemon :=
  if ¬ Reaches stop 2 then D
  else match D.tables.recordReceipt id receipt.success receipt.blockNumber receipt.blockHash now with
    | .error _ => D
    | .ok (.reverted, T) =>
      { D with tables := T }.write stop 3
        (T.markManualReview id (revertedReason t receipt.blockNumber) now) fun D =>
          finishes D stop 4 (onReverted D t)
    | .ok (.manualReview, T) => { D with tables := T }
    | .ok (_, T) =>
      let D := { D with tables := T }
      if ¬ Reaches stop 3 then D
      else match T.updateConfirmations id (confirmationsAt head receipt.blockNumber)
          u.requiredConfirmations.toNat now with
        | .error _ => D
        | .ok (promoted, T) =>
          let D := { D with tables := T }
          if promoted ∧ verifyOperationEffect receipt w then finishes D stop 4 (onFinalized D id t)
          else D

/-- `poll_receipt`. -/
def pollReceipt (u : Submitter) (D : Daemon) (id : ℕ) (t : Tx) (w : PollAnswers) (head : ℕ)
    (stop : Option ℕ) (now : ℤ) : Daemon :=
  match t.txHash with
  | none => D
  | some hash =>
    if ¬ Reaches stop 1 then D
    else
      let D := { D with exchanges := .receiptRead id hash :: D.exchanges }
      match w.receipt with
      | none | some none => D
      | some (some receipt) =>
        if receipt.txHash ≠ hash then D
        else recordReceipt u D id t receipt w head stop now

end Settler

/-! ## The ticks -/

/-- `robinhood_txs_in_state`. -/
def Tables.txsInState (T : Tables) (state : RobinhoodTxState) : List (ℕ × Tx) :=
  T.transactions.rows.entries.filter fun e => e.2.state = state

/-- What is answered during a broadcast tick, and where it stops. -/
structure BroadcastTick where
  now : ℤ
  pendingNonce : Option ℕ
  answers : ℕ → SendAnswers
  stop : ℕ → Option ℕ

/-- What is answered during a receipt tick, and where it stops. A row that is
included in its first half is polled again in the second. -/
structure ReceiptTick where
  now : ℤ
  head : Option ℕ
  broadcast : ℕ → PollAnswers
  included : ℕ → PollAnswers
  stopBroadcast : ℕ → Option ℕ
  stopIncluded : ℕ → Option ℕ

namespace Settler

/-- `reconcile_nonce`. -/
def reconcileNonce (s : Settler) (u : Submitter) (D : Daemon) (w : BroadcastTick) : Daemon :=
  match w.pendingNonce with
  | none => D
  | some pending =>
    D.write none 1 ((D.tables.recordSubmitterNonce u.address s.chainId pending w.now).map Prod.snd)
      fun D => D

/-- `tick_broadcast`. Both lists are read before either is processed. -/
def tickBroadcast (s : Settler) (u : Submitter) (D : Daemon) (w : BroadcastTick) : Daemon :=
  let D := s.reconcileNonce u D w
  let authorized := D.tables.txsInState .authorized
  let inFlight := D.tables.txsInState .broadcast
  let D := authorized.foldl (fun D e =>
    s.signAndSend u D e.1 e.2 (w.answers e.1) (w.stop e.1) w.now) D
  inFlight.foldl (fun D e =>
    s.rebroadcastOrReplace u D e.1 e.2 (w.answers e.1) (w.stop e.1) w.now) D

/-- The polls of the rows in a state. -/
def pollRows (u : Submitter) (D : Daemon) (state : RobinhoodTxState) (answers : ℕ → PollAnswers)
    (stop : ℕ → Option ℕ) (head : ℕ) (now : ℤ) : Daemon :=
  (D.tables.txsInState state).foldl (fun D e =>
    pollReceipt u D e.1 e.2 (answers e.1) head (stop e.1) now) D

/-- `tick_receipts`. -/
def tickReceipts (u : Submitter) (D : Daemon) (w : ReceiptTick) : Daemon :=
  match w.head with
  | none => D
  | some head =>
    let D := pollRows u D .broadcast w.broadcast w.stopBroadcast head w.now
    pollRows u D .included w.included w.stopIncluded head w.now

end Settler

end Service.Robinhood
