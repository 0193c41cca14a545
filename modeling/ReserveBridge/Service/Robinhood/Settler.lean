-- SUMMARY: The authorization phase of the Robinhood settlement engine: what a payout, a settlement and a refund ask the signers for, what is stored of it, and the call that is rebuilt from what was stored.
import ReserveBridge.Service.BeginRefund
import ReserveBridge.Service.Robinhood.Operations

/-!
# The settlement engine: authorization

Phase 2 of `service/src/robinhood/settlement.rs`, and `begin_refund` on the same
rows. A tick builds an authorization from a request, from the clock and from
the live signer epoch, begins the operation's row, collects a quorum, and
stores it. The process may stop after any of its transactions.
-/

namespace Service.Robinhood
open Guard

inductive SettlementError
  | tx (e : TxError)
  | ledger (e : LedgerError)
  | quorum (e : Quorum.QuorumError)
  | gate | auth
  | request (id : ℕ)
  | fee (id : ℕ)
  | amountConversion (id : ℕ)
  | operation
  | refund (e : RefundError)
  deriving DecidableEq, Repr

/-! ## What is authorized -/

/-- The durable identity of what an operation answers. -/
inductive SourceIdentity
  | goldcoin (txid vout requestId : ℕ)
  | solana (program index requestId : ℕ)
  | obligation (index : ℕ)
  deriving DecidableEq, Repr

/-- What an authorization says about its operation, at any time. A kind leaves
out what it does not name. -/
structure Terms where
  kind : TxKind
  route : Option Direction
  contractRequestId : ℕ
  obligationIndex : Option UInt64
  recipient : Option ℕ
  amount : Option ℕ
  deriving DecidableEq, Repr

/-- `EvmAuthRequest`: the fields of `PayoutAuth`, `SettlementAuth`, `RefundAuth`
and `TreasuryWithdrawAuth` that vary under one deployment. -/
structure Authorization extends Terms where
  signerEpoch : UInt64
  expiry : UInt64
  deriving DecidableEq, Repr

/-- The deployment a settler is bound to and its configuration, with what
hashing and recovery do under its domain. -/
structure Settler where
  bridgeContract : ℕ
  chainId : ℕ
  verifier : Quorum.Verifier
  digest : Authorization → Option ℕ
  deriveRequestId : TxKind → Direction → SourceIdentity → Option ℕ
  /-- `verify_breakdown` of a request: the net it owes. -/
  verifyBreakdown : Request → Option ℕ
  /-- `EvmAddress::try_from_slice`. -/
  addressOf : Bytes → Option ℕ
  authorizationTtl : ℕ
  requiredGoldcoinConfirmations : ℤ

/-- What the chain and the signers answer at some time. A read that fails
answers nothing. -/
structure AuthAnswers where
  now : ℤ
  signerEpoch : Option UInt64
  outboundLimits : Option (ℕ × ℕ)
  obligation : Option Obligation
  signers : List (Quorum.Signer Authorization)

/-- `RobinhoodAtomic` units in a canonical one. -/
def robinhoodScale : ℕ := 10 ^ 10

/-- `(now as u64).saturating_add(ttl)`. -/
def Settler.expiryAt (s : Settler) (now : ℤ) : UInt64 :=
  UInt64.ofNat (min (asU64 now + s.authorizationTtl) (2 ^ 64 - 1))

/-- The identity a payout is derived from. -/
def payoutIdentity (r : Request) (id : ℕ) : Option SourceIdentity :=
  match r.direction with
  | .glcToRhn => do return .goldcoin (← r.sourceTxid) (← r.sourceVout) id
  | .solToRhn => do return .solana (← r.sourceContract) (← r.sourceObligationIndex) id
  | _ => none

namespace Settler

/-- The net of the request, in the unit of Robinhood. -/
def payoutAmount (s : Settler) (r : Request) (id : ℕ) : Except SettlementError ℕ := do
  let net ← orFail (s.verifyBreakdown r) (.fee id)
  require (net * robinhoodScale < 2 ^ 128) (.amountConversion id)
  return net * robinhoodScale

/-- What a payout of the request says. -/
def payoutTerms (s : Settler) (r : Request) (id : ℕ) : Except SettlementError Terms := do
  let amount ← s.payoutAmount r id
  let recipient ← orFail (s.addressOf r.recipient) (.request id)
  let identity ← orFail (payoutIdentity r id) (.request id)
  let contractRequestId ← orFail (s.deriveRequestId .payout r.direction identity) .auth
  return {
    kind := .payout
    route := some r.direction
    contractRequestId := contractRequestId
    obligationIndex := none
    recipient := some recipient
    amount := some amount }

/-- What a settlement of the request says. -/
def settlementTerms (s : Settler) (r : Request) (id : ℕ) : Except SettlementError Terms := do
  let index ← orFail r.sourceObligationIndex (.request id)
  require (r.sourceContract = some s.bridgeContract) (.request id)
  let contractRequestId ← orFail (s.deriveRequestId .settlement r.direction (.obligation index)) .auth
  return {
    kind := .settlement
    route := some r.direction
    contractRequestId := contractRequestId
    obligationIndex := some (UInt64.ofNat index)
    recipient := none
    amount := none }

/-- Whether the destination payout is final enough to settle behind. -/
def settlementIsDue (s : Settler) (r : Request) (id : ℕ) : Except SettlementError Bool :=
  match r.direction with
  | .rhnToGlc => do
    let payout ← orFail r.goldcoinPayout (.request id)
    require payout.txid.isSome (.request id)
    return s.requiredGoldcoinConfirmations ≤ payout.confirmations ∧
      (payout.state = .confirmed ∨ payout.state = .completed)
  | .rhnToSol => do
    if r.state ≠ .destinationConfirmed then return false
    require r.destinationTxid.isSome (.request id)
    return true
  | _ => .error (.request id)

/-- What a refund of the obligation says. -/
def refundTerms (s : Settler) (r : Request) (id : ℕ) (obligation : Obligation) :
    Except SettlementError Terms := do
  let index ← orFail r.sourceObligationIndex (.request id)
  require obligation.isPending (.refund .obligationNotPending)
  require (some obligation.route = r.direction.contractRouteId) (.refund .invalid)
  require (obligation.amount < 2 ^ 128) (.refund .invalid)
  let contractRequestId ← orFail (s.deriveRequestId .refund r.direction (.obligation index)) .auth
  return {
    kind := .refund
    route := some r.direction
    contractRequestId := contractRequestId
    obligationIndex := some (UInt64.ofNat index)
    recipient := some obligation.depositor
    amount := some obligation.amount }

/-- The authorization of these terms now. The signer epoch is read live. -/
def authorization (s : Settler) (w : AuthAnswers) (terms : Terms) :
    Except SettlementError Authorization := do
  let signerEpoch ← orFail w.signerEpoch .gate
  return { terms with signerEpoch := signerEpoch, expiry := s.expiryAt w.now }

/-- The row for an authorization. -/
def newTx (s : Settler) (id : ℕ) (a : Authorization) (digest : ℕ) : NewTx where
  kind := a.kind
  requestId := some id
  rebalanceRequestId := none
  route := a.route
  bridgeContract := s.bridgeContract
  chainId := s.chainId
  contractRequestId := a.contractRequestId
  obligationIndex := a.obligationIndex.map UInt64.toNat
  recipient := a.recipient
  amountRobinhood := a.amount
  signerEpoch := a.signerEpoch.toNat
  expiry := a.expiry.toNat
  authDigest := digest

/-! ## The ticks -/

/-- The row is begun, or found. -/
def begin (s : Settler) (T : Tables) (id : ℕ) (a : Authorization) (now : ℤ) :
    Except SettlementError (ℕ × Tables) := do
  let digest ← orFail (s.digest a) .auth
  let (outcome, T) ← (T.beginTx (s.newTx id a digest) now).mapError .tx
  return (outcome.id, T)

/-- `collect_and_store`. -/
def collectAndStore (s : Settler) (T : Tables) (txId : ℕ) (a : Authorization) (w : AuthAnswers) :
    Except SettlementError Tables := do
  let quorum ← (s.verifier.collectQuorum s.digest w.signers a).mapError .quorum
  (T.recordAuthorization txId quorum w.now).mapError .tx

/-- From the authorization on, until `commits` transactions are committed. -/
def beginAndCollect (s : Settler) (T : Tables) (id : ℕ) (a : Authorization) (w : AuthAnswers)
    (commits : ℕ) : Tables :=
  if commits = 0 then T
  else match s.begin T id a w.now with
    | .error _ => T
    | .ok (txId, begun) =>
      if commits = 1 then begun
      else match s.collectAndStore begun txId a w with
        | .error _ => begun
        | .ok stored => stored

end Settler

/-- The operation rows and the ledger around them. -/
structure World where
  tables : Tables
  ledger : Ledger

def World.empty : World := ⟨.empty, .empty⟩

namespace Settler

/-- There is a row that the authorization phase is done with. -/
def isBegun (T : Tables) (kind : TxKind) (id : ℕ) : Prop :=
  ∃ e ∈ T.txFor kind id, e.2.state ≠ .authorizing

instance (T : Tables) (kind : TxKind) (id : ℕ) : Decidable (isBegun T kind id) :=
  inferInstanceAs (Decidable (∃ e ∈ T.txFor kind id, _))

/-- Up to the authorization of `authorize_payout`: `none` when the payout is out
of bounds. -/
def preparePayout (s : Settler) (W : World) (w : AuthAnswers) (id : ℕ) :
    Except SettlementError (Option Authorization) := do
  let r ← (W.ledger.request id).mapError .ledger
  require r.direction.destinationIsRobinhood (.request id)
  let amount ← s.payoutAmount r id
  let (outboundMin, outboundMax) ← orFail w.outboundLimits .gate
  if amount < outboundMin ∨ outboundMax < amount then return none
  let terms ← s.payoutTerms r id
  return some (← s.authorization w terms)

/-- `authorize_payout`. A payout out of bounds is parked. -/
def authorizePayout (s : Settler) (W : World) (w : AuthAnswers) (id commits : ℕ) : World :=
  if isBegun W.tables .payout id then W
  else match s.preparePayout W w id with
    | .error _ => W
    | .ok none =>
      if commits = 0 then W
      else { W with ledger := (W.ledger.parkForDestinationBounds id).toOption.getD W.ledger }
    | .ok (some a) => { W with tables := s.beginAndCollect W.tables id a w commits }

/-- Up to the authorization of `authorize_settlement`: `none` when it is not
due. -/
def prepareSettlement (s : Settler) (W : World) (w : AuthAnswers) (id : ℕ) :
    Except SettlementError (Option Authorization) := do
  let r ← (W.ledger.request id).mapError .ledger
  if ¬ (← s.settlementIsDue r id) then return none
  let terms ← s.settlementTerms r id
  return some (← s.authorization w terms)

/-- `authorize_settlement`. -/
def authorizeSettlement (s : Settler) (W : World) (w : AuthAnswers) (id commits : ℕ) : World :=
  if isBegun W.tables .settlement id then W
  else match s.prepareSettlement W w id with
    | .error _ => W
    | .ok none => W
    | .ok (some a) => { W with tables := s.beginAndCollect W.tables id a w commits }

/-- Up to the authorization of `begin_refund`: `none` when there is a refund. -/
def prepareRefund (s : Settler) (W : World) (w : AuthAnswers) (id : ℕ) :
    Except SettlementError (Option Authorization) := do
  if (W.tables.txFor .refund id).isSome then return none
  require (W.tables.txFor .settlement id = none) (.refund .alreadySettled)
  let r ← (W.ledger.request id).mapError .ledger
  require r.direction.sourceIsRobinhood (.refund .wrongDirection)
  require (r.state = .manualReview) (.refund .notRefundable)
  require (∀ p ∈ r.goldcoinPayout, p.txid = none) (.refund .alreadyPaidOut)
  require (r.destinationTxid = none) (.refund .alreadyPaidOut)
  (W.ledger.refuseUnlessDecided id).mapError .ledger
  require r.sourceObligationIndex.isSome (.refund .invalid)
  require (r.sourceContract = some s.bridgeContract) (.refund .foreignContract)
  let obligation ← orFail w.obligation .gate
  let terms ← s.refundTerms r id obligation
  return some (← s.authorization w terms)

/-- `begin_refund`. Once the quorum is stored the request is on its way to be
refunded. -/
def beginRefund (s : Settler) (W : World) (w : AuthAnswers) (id commits : ℕ) : World :=
  match s.prepareRefund W w id with
  | .error _ => W
  | .ok none => W
  | .ok (some a) =>
    let tables := s.beginAndCollect W.tables id a w commits
    let stored := (tables.txFor .refund id).any fun e => e.2.state = .authorized
    if 3 ≤ commits ∧ stored then
      ⟨tables, (W.ledger.markRobinhoodRefundPending id).toOption.getD W.ledger⟩
    else { W with tables := tables }

end Settler

/-! ## The call -/

/-- `x as u64`, of a column. -/
def u64 (x : ℤ) : UInt64 := UInt64.ofNat (asU64 x)

/-- The authorization a row spells. A kind must name what it needs. -/
def Payload.rebuildAuthorization (p : Payload) : Except SettlementError Authorization := do
  require (p.kind = .treasuryWithdraw ∨ p.route.isSome) .operation
  require (p.kind = .payout ∨ p.kind = .treasuryWithdraw ∨ p.obligationIndex.isSome) .operation
  require (p.kind = .settlement ∨ p.recipient.isSome) .operation
  require (p.kind = .settlement ∨ ∃ n ∈ p.amountRobinhood, n < 2 ^ 128) .operation
  return {
    kind := p.kind
    route := p.route
    contractRequestId := p.contractRequestId
    obligationIndex := p.obligationIndex.map u64
    recipient := p.recipient
    amount := p.amountRobinhood
    signerEpoch := u64 p.signerEpoch
    expiry := u64 p.expiry }

/-- The calldata: what is authorized, with the signatures. -/
structure EvmCall where
  authorization : Authorization
  signatures : List ℕ
  deriving DecidableEq, Repr

/-- `build_call`. -/
def Settler.buildCall (s : Settler) (t : Tx) : Except SettlementError EvmCall := do
  require (t.signatures.length = signerThreshold) .operation
  let payload ← t.rebuildAuthorization
  let digest ← orFail (s.digest payload) .auth
  require (digest = t.authDigest) .operation
  return ⟨payload, t.signatures.map Prod.snd⟩

/-! ## A sample deployment -/

/-- A deployment where a digest is the expiry, and a signature the sum of the
digest and the signer. -/
def Settler.sample : Settler where
  bridgeContract := 1
  chainId := 46630
  verifier := ⟨fun digest signature => if digest ≤ signature then some (signature - digest) else none,
    [1, 2, 3]⟩
  digest a := some a.expiry.toNat
  deriveRequestId _ _ identity :=
    match identity with
    | .goldcoin _ _ requestId | .solana _ _ requestId => some requestId
    | .obligation index => some index
  verifyBreakdown r := some r.netAmount.toNat
  addressOf bytes := bytes.head?.map UInt8.toNat
  authorizationTtl := 3600
  requiredGoldcoinConfirmations := 6

end Service.Robinhood
