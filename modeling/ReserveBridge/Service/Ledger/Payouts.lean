-- SUMMARY: The destination leg: releases on Solana, payouts on Goldcoin, operations on Robinhood, and the completions that conclude a request.
import ReserveBridge.Service.Ledger.Refunds

/-!
# The destination leg

A finalized request is paid on its destination chain and then concluded. Each
destination has its own payout, and a conclusion is recorded by polling or by
reconciliation with the chain.
-/

namespace Service
open Guard

namespace Ledger

/-! ## Releases on Solana -/

/-- `record_release_submitted`. -/
def recordReleaseSubmitted (l : Ledger) (id : ℕ) (signature : ℕ) : Except LedgerError Ledger := do
  let r ← l.request id
  require r.direction.destinationIsSolana .panicked
  if r.state ≠ .sourceFinalized then return l
  return l.setRequest id
    { r.transition .destinationSubmitted with destinationTxid := some signature }

/-- `record_attestation`, of the action `release`. -/
def recordReleaseAttestation (l : Ledger) (id : ℕ) : Except LedgerError Ledger := do
  let r ← l.request id
  return l.setRequest id { r with releaseAttested := true }

/-- `release_confirmed_in`. -/
def releaseConfirmed (l : Ledger) (id : ℕ) : Except LedgerError Ledger := do
  let r ← l.request id
  require r.direction.destinationIsSolana .panicked
  if r.state = .settled ∨ (r.state = .destinationConfirmed ∧ ¬ r.direction.settlesOnRelease) then
    return l
  require (r.state = .destinationSubmitted) .panicked
  let confirmed := r.transition .destinationConfirmed
  let concluded := if r.direction.settlesOnRelease then confirmed.transition .settled else confirmed
  return ((l.setRequest id concluded).settle .solanaReserve r.netDestination)
    |>.accrueFee r.direction.sourceReserve r.feeAmount

/-- `reconcile_release_from_chain`. -/
def reconcileReleaseFromChain (l : Ledger) (id : ℕ) : Except LedgerError Ledger := do
  let r ← l.request id
  if r.state ≠ .destinationSubmitted then
    require (r.state = .destinationConfirmed ∨ r.state = .settled) (.robinhoodTxInvalid id)
    return l
  l.releaseConfirmed id

/-! ## Payouts on Goldcoin -/

/-- The unique index on the inputs of all Goldcoin payouts. -/
def PayoutInputTaken (l : Ledger) (o : Outpoint) : Prop :=
  ∃ e ∈ l.requests.entries, ∃ p ∈ e.2.goldcoinPayout, o ∈ p.inputs

instance (l : Ledger) (o : Outpoint) : Decidable (l.PayoutInputTaken o) :=
  inferInstanceAs (Decidable (∃ e ∈ l.requests.entries, ∃ p ∈ e.2.goldcoinPayout, o ∈ p.inputs))

end Ledger

/-- `PayoutPlan`. -/
structure PayoutPlan where
  payout : ℕ
  changeOutputs : List ℕ
  fee : ℕ
  inputs : List Outpoint

namespace Ledger

/-- `record_goldcoin_payout_built`. The state of the request is not looked at. -/
def recordGoldcoinPayoutBuilt (l : Ledger) (id : ℕ) (plan : PayoutPlan) :
    Except LedgerError Ledger := do
  let r ← l.request id
  require (r.goldcoinPayout = none) (.payoutAlreadyExists id)
  require (r.solanaRefund = none) (.refundLifecycleExists id)
  require (plan.inputs.Nodup ∧ ∀ o ∈ plan.inputs, ¬ l.PayoutInputTaken o) .constraintViolated
  return l.setRequest id { r with
    goldcoinPayout := some
      { state := .built
        payout := asI64 plan.payout
        change := asI64 plan.changeOutputs.sum
        fee := asI64 plan.fee
        inputs := plan.inputs
        changeOutputs := plan.changeOutputs.map fun c => asI64 c
        txid := none
        confirmations := 0
        completionSignature := none } }

/-- `record_goldcoin_payout_signed`. -/
def recordGoldcoinPayoutSigned (l : Ledger) (id : ℕ) : Except LedgerError Ledger := do
  let r ← l.request id
  let p ← orFail r.goldcoinPayout (.payoutNotFound id)
  require (p.state = .built) (.payoutNotFound id)
  require (r.state = .sourceFinalized) .panicked
  return l.setRequest id
    { r.transition .settlementAuthorized with goldcoinPayout := some { p with state := .signed } }

/-- The depth of the deepest unconfirmed change among the inputs of a payout. -/
def parentDepth (l : Ledger) (p : GoldcoinPayout) : ℤ :=
  (((l.vault.changeOutpoints.filter fun c => c.outpoint ∈ p.inputs ∧
    ((l.requests.get? c.requestId).bind Request.goldcoinPayout).any (·.confirmations = 0)).map
      ChangeOutpoint.depth).max?).getD 0

/-- The amounts of the change outputs. A row without output rows has one output
of the whole change. -/
def changeAmounts (p : GoldcoinPayout) : List ℤ :=
  if p.changeOutputs ≠ [] then p.changeOutputs else if 0 < p.change then [p.change] else []

/-- `INSERT OR IGNORE INTO goldcoin_payout_change_outpoints`. Output zero is the
payout itself. -/
def recordChangeOutpoints (l : Ledger) (id : ℕ) (p : GoldcoinPayout) (txid : Txid) : Vault :=
  let rows := (changeAmounts p).mapIdx fun i amount =>
    ({ outpoint := (txid, i + 1)
       requestId := id
       amount := amount
       depth := l.parentDepth p + 1 } : ChangeOutpoint)
  { l.vault with changeOutpoints := l.vault.changeOutpoints ++
      rows.filter fun c => c.outpoint ∉ l.vault.changeOutpoints.map ChangeOutpoint.outpoint }

/-- `record_goldcoin_payout_broadcast`. -/
def recordGoldcoinPayoutBroadcast (l : Ledger) (id : ℕ) (txid : Txid) : Except LedgerError Ledger := do
  let r ← l.request id
  let p ← orFail r.goldcoinPayout (.payoutNotFound id)
  if p.state = .broadcast ∨ p.state = .confirmed ∨ p.state = .completed then return l
  require (p.state = .signed) .panicked
  require (r.state = .settlementAuthorized) .panicked
  return { l with vault := l.recordChangeOutpoints id p txid }.setRequest id
    { r.transition .destinationSubmitted with
      destinationTxid := some txid
      goldcoinPayout := some { p with state := .broadcast, txid := some txid } }

/-- `update_goldcoin_payout_confirmations`. At the required depth the request
moves whatever state it is in. -/
def updateGoldcoinPayoutConfirmations (l : Ledger) (id : ℕ) (confirmations requiredDepth : ℤ) :
    Except LedgerError Ledger := do
  let r ← l.request id
  match r.goldcoinPayout with
  | none => return l
  | some p =>
    let p := if (p.state = .broadcast ∨ p.state = .confirmed) ∧ p.confirmations < confirmations then
      { p with confirmations := confirmations } else p
    if requiredDepth ≤ confirmations ∧ p.state = .broadcast then
      return l.setRequest id { r.transition .destinationConfirmed with
        goldcoinPayout := some { p with state := .confirmed } }
    return l.setRequest id { r with goldcoinPayout := some p }

/-- `record_goldcoin_completion_submitted`. -/
def recordGoldcoinCompletionSubmitted (l : Ledger) (id : ℕ) (signature : ℕ) :
    Except LedgerError Ledger := do
  let r ← l.request id
  let p ← orFail r.goldcoinPayout (.payoutNotFound id)
  if p.state = .completed then return l
  require (p.state = .confirmed) .panicked
  return l.setRequest id
    { r with goldcoinPayout := some { p with completionSignature := some signature } }

/-- `goldcoin_completion_confirmed_in`. -/
def goldcoinCompletionConfirmed (l : Ledger) (id : ℕ) (requireSubmission : Bool) :
    Except LedgerError Ledger := do
  let r ← l.request id
  if r.state = .settled then return l
  require (r.state = .destinationConfirmed) .panicked
  require (requireSubmission = true →
    (r.goldcoinPayout.bind GoldcoinPayout.completionSignature).isSome) (.completionNotSubmitted id)
  let vault := l.vault.markSpent (fun _ u => u.reservedBy = some id)
    (r.goldcoinPayout.bind GoldcoinPayout.txid)
  let settled := { l with vault := vault }.setRequest id { r.transition .settled with
    goldcoinPayout := r.goldcoinPayout.map fun (p : GoldcoinPayout) =>
      { p with state := .completed } }
  return (settled.settle .goldcoinReserve r.netDestination).accrueFee .solanaReserve r.feeAmount

/-- `reconcile_goldcoin_completion_from_chain`. -/
def reconcileGoldcoinCompletionFromChain (l : Ledger) (id : ℕ) : Except LedgerError Ledger := do
  let r ← l.request id
  if r.state = .settled then return l
  require (r.state = .destinationConfirmed) (.robinhoodTxInvalid id)
  l.goldcoinCompletionConfirmed id false

/-! ### What the callers act on

The completion of a payout closes a Solana obligation, so only a `solToGlc`
request has one. -/

/-- `submit_completion`, of a Goldcoin payout. -/
def submitGoldcoinCompletion (l : Ledger) (id : ℕ) (signature : ℕ) : Except LedgerError Ledger := do
  let r ← l.request id
  require (r.direction = .solToGlc) (.notARoute id)
  l.recordGoldcoinCompletionSubmitted id signature

/-- `apply` of a proof that `prove` produced, of the shape `CompletionLanded`. -/
def applyCompletionLanded (l : Ledger) (id : ℕ) : Except LedgerError Ledger := do
  let r ← l.request id
  require (r.direction = .solToGlc) (.notARoute id)
  l.reconcileGoldcoinCompletionFromChain id

/-! ## Operations on Robinhood -/

/-- The row of an operation, with the request it names. -/
def robinhoodTx (l : Ledger) (kind : RobinhoodTxKind) (id : ℕ) :
    Except LedgerError (Request × RobinhoodTx) := do
  let r ← l.request id
  let t ← orFail (r.robinhoodTx kind) (.robinhoodTxInvalid id)
  return (r, t)

/-- `begin_robinhood_tx`. The state of the request is not looked at. -/
def beginRobinhoodTx (l : Ledger) (kind : RobinhoodTxKind) (id : ℕ) (authDigest : ℕ) :
    Except LedgerError Ledger := do
  let r ← l.request id
  if (r.robinhoodTx kind).isSome then return l
  return l.setRequest id (r.setRobinhoodTx kind
    { state := .authorizing
      authDigest := authDigest
      signatures := []
      rawTx := none
      receiptBlock := none
      finalizedAt := none
      completionSignature := none })

/-- `record_robinhood_authorization`. -/
def recordRobinhoodAuthorization (l : Ledger) (kind : RobinhoodTxKind) (id : ℕ)
    (signatures : List (ℕ × ℕ)) : Except LedgerError Ledger := do
  require (signatures.length = 2) (.robinhoodTxInvalid id)
  require (signatures.map Prod.fst).Nodup (.robinhoodTxInvalid id)
  let (r, t) ← l.robinhoodTx kind id
  if t.signatures ≠ [] then
    require (t.signatures = signatures) (.robinhoodTxInvalid id)
    return l
  require (t.state = .authorizing) (.robinhoodTxInvalid id)
  return l.setRequest id
    (r.setRobinhoodTx kind { t with state := .authorized, signatures := signatures })

/-- `record_robinhood_signed`. -/
def recordRobinhoodSigned (l : Ledger) (kind : RobinhoodTxKind) (id : ℕ) (rawTx : ℕ) :
    Except LedgerError Ledger := do
  let (r, t) ← l.robinhoodTx kind id
  if let some stored := t.rawTx then
    require (stored = rawTx) (.robinhoodTxInvalid id)
    return l
  require (t.state = .authorized) (.robinhoodTxInvalid id)
  return l.setRequest id (r.setRobinhoodTx kind { t with state := .signed, rawTx := some rawTx })

/-- `record_robinhood_broadcast`. -/
def recordRobinhoodBroadcast (l : Ledger) (kind : RobinhoodTxKind) (id : ℕ) :
    Except LedgerError Ledger := do
  let (r, t) ← l.robinhoodTx kind id
  require (t.state = .signed ∨ t.state = .broadcast) (.robinhoodTxInvalid id)
  return l.setRequest id (r.setRobinhoodTx kind { t with state := .broadcast })

/-- `record_robinhood_receipt`. The schema keeps `finalized_at` for finalized
rows, and so refuses to park one. -/
def recordRobinhoodReceipt (l : Ledger) (kind : RobinhoodTxKind) (id : ℕ) (success : Bool)
    (block : ℕ) : Except LedgerError Ledger := do
  let (r, t) ← l.robinhoodTx kind id
  if ∃ stored ∈ t.receiptBlock, stored ≠ block then
    require (t.finalizedAt = none) (.robinhoodTxInvalid id)
    return l.setRequest id (r.setRobinhoodTx kind { t with state := .manualReview })
  if t.state = .finalized ∨ t.state = .reverted ∨ t.state = .manualReview then return l
  require (t.state = .broadcast ∨ t.state = .included) (.robinhoodTxInvalid id)
  return l.setRequest id (r.setRobinhoodTx kind { t with
    state := if success then .included else .reverted
    receiptBlock := some block })

/-- `update_robinhood_confirmations`. -/
def updateRobinhoodConfirmations (l : Ledger) (kind : RobinhoodTxKind) (id : ℕ)
    (confirmations required now : ℤ) : Except LedgerError Ledger := do
  let (r, t) ← l.robinhoodTx kind id
  if t.state = .finalized then return l
  require (t.state = .included) (.robinhoodTxInvalid id)
  return if required ≤ confirmations then
      l.setRequest id
        (r.setRobinhoodTx kind { t with state := .finalized, finalizedAt := some now })
    else l

/-- `mark_robinhood_tx_manual_review`. -/
def markRobinhoodTxManualReview (l : Ledger) (kind : RobinhoodTxKind) (id : ℕ) :
    Except LedgerError Ledger := do
  let (r, t) ← l.robinhoodTx kind id
  require (t.state ≠ .finalized) (.robinhoodTxInvalid id)
  return l.setRequest id (r.setRobinhoodTx kind { t with state := .manualReview })

/-! ## Conclusion on Robinhood -/

/-- `mark_robinhood_payout_settled`. Any state but those already concluded is
moved. -/
def markRobinhoodPayoutSettled (l : Ledger) (id : ℕ) : Except LedgerError Ledger := do
  let r ← l.request id
  require r.direction.destinationIsRobinhood (.robinhoodTxInvalid id)
  if r.state = .settled ∨ (r.state = .destinationConfirmed ∧ ¬ r.direction.settlesOnPayout) then
    return l
  let confirmed := r.transition .destinationConfirmed
  let concluded := if r.direction.settlesOnPayout then confirmed.transition .settled else confirmed
  return ((l.setRequest id concluded).settle .robinhoodReserve r.netDestination)
    |>.accrueFee r.direction.sourceReserve r.feeAmount

/-- `record_robinhood_payout_completion_submitted`. -/
def recordRobinhoodPayoutCompletionSubmitted (l : Ledger) (id : ℕ) (signature : ℕ) :
    Except LedgerError Ledger := do
  let r ← l.request id
  require (r.direction = .solToRhn) (.robinhoodTxInvalid id)
  if r.state = .settled then return l
  require (r.state = .destinationConfirmed) (.robinhoodTxInvalid id)
  let t ← orFail (r.robinhoodTx .payout) (.robinhoodTxInvalid id)
  require (t.state = .finalized) (.robinhoodTxInvalid id)
  return l.setRequest id
    (r.setRobinhoodTx .payout { t with completionSignature := some signature })

/-- `mark_robinhood_payout_completion_confirmed`. -/
def markRobinhoodPayoutCompletionConfirmed (l : Ledger) (id : ℕ) : Except LedgerError Ledger := do
  let r ← l.request id
  require (r.direction = .solToRhn) (.robinhoodTxInvalid id)
  if r.state = .settled then return l
  require (r.state = .destinationConfirmed) (.robinhoodTxInvalid id)
  require ((r.robinhoodTx .payout).bind RobinhoodTx.completionSignature).isSome
    (.completionNotSubmitted id)
  return l.setRequest id (r.transition .settled)

/-- `settle_confirmed_in`, of `mark_robinhood_settlement_confirmed`. Only
`RhnToGlc` still has its reserve to debit. -/
def robinhoodSettleConfirmed (l : Ledger) (id : ℕ) : Except LedgerError Ledger := do
  let r ← l.request id
  require r.direction.sourceIsRobinhood (.robinhoodTxInvalid id)
  if r.state = .settled then return l
  require (r.state = .destinationConfirmed) (.robinhoodTxInvalid id)
  if r.direction = .rhnToGlc then
    let settled := l.setRequest id { r.transition .settled with
      goldcoinPayout := r.goldcoinPayout.map fun p =>
        if p.state = .confirmed then { p with state := .completed } else p }
    return (settled.settle .goldcoinReserve r.netDestination).accrueFee .robinhoodReserve r.feeAmount
  return l.setRequest id (r.transition .settled)

/-- `reconcile_robinhood_settlement_from_chain`. The schema finalizes only what
was signed. -/
def reconcileRobinhoodSettlementFromChain (l : Ledger) (id : ℕ) (block : ℕ) (now : ℤ) :
    Except LedgerError Ledger := do
  let (r, t) ← l.robinhoodTx .settlement id
  if t.state = .finalized ∧ r.state = .settled then return l
  require (t.state ≠ .reverted) (.robinhoodTxInvalid id)
  require (r.state = .destinationConfirmed) (.robinhoodTxInvalid id)
  require t.rawTx.isSome (.robinhoodTxInvalid id)
  (l.setRequest id (r.setRobinhoodTx .settlement
    { t with state := .finalized, receiptBlock := some block, finalizedAt := some now }))
      |>.robinhoodSettleConfirmed id

end Ledger

end Service
