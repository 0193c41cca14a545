-- SUMMARY: The functions of `GlcRobinhoodBridge.sol`: internal helpers, the fifteen external entry points, the constructor, and the transition system they form.
import ReserveBridge.Evm.Types
import ReserveBridge.Lib.Run

/-!
# The Robinhood reserve contract: functions

Each function takes the state before and returns the state after, or the revert
that undoes the whole call. Guards stand in the order of the source. Events are
not modelled: no function of the contract reads one.
-/

namespace Evm
open Guard

/-! ## Constants -/

def canonicalScale : ℕ := 10 ^ 10
def expectedTokenDecimals : ℕ := 18
def maxDestinationLen : ℕ := 64
def rollingWindowSeconds : ℕ := 86400

def actionPayout : ℕ := 0x01
def actionRefund : ℕ := 0x02
def actionSettle : ℕ := 0x03
def actionSetPause : ℕ := 0x04
def actionRotateSigners : ℕ := 0x05
def actionRotateGuardians : ℕ := 0x06
def actionSetLimits : ℕ := 0x07
def actionCommitMigration : ℕ := 0x08
def actionFinalizeMigration : ℕ := 0x09
def actionAbandon : ℕ := 0x0A
def actionSetRouteEnabled : ℕ := 0x0B
def actionTreasuryWithdraw : ℕ := 0x0C

def routeGlcToRhn : ℕ := 0x01
def routeRhnToGlc : ℕ := 0x02
def routeSolToRhn : ℕ := 0x03
def routeRhnToSol : ℕ := 0x04

def payoutType : String :=
  "PayoutAuth(uint8 action,uint8 route,uint64 protocolSourceChainId," ++
  "uint64 protocolDestChainId,address token,bytes32 requestId,address recipient," ++
  "uint256 amount,uint64 signerEpoch,uint64 expiry)"

def refundType : String :=
  "RefundAuth(uint8 action,uint8 route,uint64 protocolSourceChainId," ++
  "uint64 protocolDestChainId,address token,bytes32 requestId,uint256 obligationIndex," ++
  "address recipient,uint256 amount,uint64 signerEpoch,uint64 expiry)"

def settlementType : String :=
  "SettlementAuth(uint8 action,uint8 route,uint64 protocolSourceChainId," ++
  "uint64 protocolDestChainId,bytes32 requestId,uint256 obligationIndex,uint64 signerEpoch," ++
  "uint64 expiry)"

def abandonmentType : String :=
  "AbandonmentAuth(uint8 action,uint8 route,uint64 protocolSourceChainId," ++
  "uint64 protocolDestChainId,bytes32 requestId,uint256 obligationIndex,uint64 signerEpoch," ++
  "uint64 expiry)"

def governanceType : String :=
  "GovernanceAuth(uint8 action,bytes32 payloadHash,uint64 signerEpoch,uint256 nonce," ++
  "uint64 expiry)"

def treasuryWithdrawType : String :=
  "TreasuryWithdrawAuth(uint8 action,address token,bytes32 requestId,address treasury," ++
  "uint256 amount,uint64 signerEpoch,uint64 expiry)"

section Functions

variable {Sig : Type} (C : Crypto Sig) (I : Immutables)

/-- `BRIDGE_PROTOCOL_ID`. -/
def bridgeProtocolId : Word := C.keccak256 (.text "glc.reserve-bridge.robinhood")

/-! ## Routes -/

/-- The legs of a route and whether it brings GLC into the reserve. -/
def routeLegs (route : ℕ) : Except Revert (ℕ × ℕ × Bool) :=
  if route = routeGlcToRhn then
    .ok (I.protocolChainGoldcoin, I.protocolChainRobinhood, false)
  else if route = routeRhnToGlc then
    .ok (I.protocolChainRobinhood, I.protocolChainGoldcoin, true)
  else if route = routeSolToRhn then
    .ok (I.protocolChainSolana, I.protocolChainRobinhood, false)
  else if route = routeRhnToSol then
    .ok (I.protocolChainRobinhood, I.protocolChainSolana, true)
  else
    .error (.unknownRoute route)

def requireRouteOpen (s : Storage) (route : ℕ) (inbound : Bool) : Except Revert Unit := do
  if inbound then
    require (s.depositsPaused = false) .depositsPaused
  else
    require (s.payoutsPaused = false) .payoutsPaused
  require (s.routeEnabled route = true) (.routeDisabled route)

def requireOpenPayoutRoute (s : Storage) (route : ℕ) : Except Revert (ℕ × ℕ) := do
  let (source, dest, inbound) ← routeLegs I route
  require (inbound = false) (.notAPayoutRoute route)
  requireRouteOpen s route inbound
  return (source, dest)

/-! ## Struct hashes -/

def payoutStructHash (req : PayoutRequest) (source dest : ℕ) : Word :=
  C.keccak256 (.encode [C.keccak256 (.text payoutType), actionPayout, req.route, source, dest,
    I.token, req.requestId, req.recipient, req.amount, req.signerEpoch, req.expiry])

def treasuryWithdrawStructHash (req : TreasuryWithdrawRequest) : Word :=
  C.keccak256 (.encode [C.keccak256 (.text treasuryWithdrawType), actionTreasuryWithdraw,
    I.token, req.requestId, req.treasury, req.amount, req.signerEpoch, req.expiry])

def refundStructHash (req : RefundRequest) (route source dest : ℕ) : Word :=
  C.keccak256 (.encode [C.keccak256 (.text refundType), actionRefund, route, source, dest,
    I.token, req.requestId, req.obligationIndex, req.recipient, req.amount, req.signerEpoch,
    req.expiry])

def settlementStructHash (req : SettlementRequest) (route source dest : ℕ) : Word :=
  C.keccak256 (.encode [C.keccak256 (.text settlementType), actionSettle, route, source, dest,
    req.requestId, req.obligationIndex, req.signerEpoch, req.expiry])

def abandonmentStructHash (req : AbandonmentRequest) (route source dest : ℕ) : Word :=
  C.keccak256 (.encode [C.keccak256 (.text abandonmentType), actionAbandon, route, source, dest,
    req.requestId, req.obligationIndex, req.signerEpoch, req.expiry])

def governanceStructHash (action payloadHash signerEpoch nonce expiry : ℕ) : Word :=
  C.keccak256 (.encode [C.keccak256 (.text governanceType), action, payloadHash, signerEpoch,
    nonce, expiry])

/-- `_hashTypedDataV4`. -/
def hashTypedData (structHash : Word) : Word :=
  C.keccak256 (.typedData I.domainSeparator structHash)

/-! ## Authorization -/

def authorize (s : Storage) (env : CallEnv) (structHash epoch expiry : ℕ)
    (signatures : List Sig) : Except Revert Unit := do
  require (env.timestamp ≤ expiry) .authorizationExpired
  require (epoch = s.signerEpoch) (.invalidSignerEpoch s.signerEpoch epoch)
  match signatures with
  | [sig₀, sig₁] =>
    let digest := hashTypedData C I structHash
    let first ← orFail (C.recover digest sig₀) .invalidSignature
    require (s.isSigner first = true) (.unauthorizedSigner first)
    let second ← orFail (C.recover digest sig₁) .invalidSignature
    require (s.isSigner second = true) (.unauthorizedSigner second)
    require (first ≠ second) (.duplicateSignerSignature first)
  | _ => .error .invalidSignatureCount

/-- `_governance`: verifies the authorization and consumes the nonce. `payload`
is what the caller hashes into `payloadHash`. -/
def governance (s : Storage) (env : CallEnv) (action : ℕ) (payload : List Word)
    (nonce expiry : ℕ) (signatures : List Sig) : Except Revert Storage := do
  require (nonce = s.governanceNonce) (.invalidGovernanceNonce s.governanceNonce nonce)
  let payloadHash := C.keccak256 (.encode payload)
  let structHash := governanceStructHash C action payloadHash s.signerEpoch nonce expiry
  authorize C I s env structHash s.signerEpoch expiry signatures
  return { s with governanceNonce := nonce + 1 }

def requestKey (action requestId : ℕ) : Word := C.keccak256 (.encode [action, requestId])

def consumeRequest (s : Storage) (action requestId : ℕ) : Except Revert Storage := do
  let key := requestKey C action requestId
  require (s.executedRequest key = false) .requestAlreadyExecuted
  return { s with executedRequest := Function.update s.executedRequest key true }

/-! ## State helpers -/

def requireCanonicalAmount (amount : ℕ) : Except Revert Unit := do
  require (amount ≠ 0) .invalidAmount
  require (amount % canonicalScale = 0) .nonCanonicalAmount

/-- `_now64`. -/
def now64 (env : CallEnv) : Except Revert ℕ := do
  require (env.timestamp < 2 ^ 64) .safeCastOverflow
  return env.timestamp

/-- `_consumeWindow`: the fixed-bucket rolling limit. -/
def consumeWindow (window : Window) (env : CallEnv) (amount limit : ℕ) :
    Except Revert Window := do
  let nowTs ← now64 env
  let age ← checkedSub nowTs window.windowStart
  let (start, total) :=
    if rollingWindowSeconds ≤ age then (nowTs, 0) else (window.windowStart, window.total)
  let projected ← checkedAdd 256 total amount
  require (projected ≤ limit) .exceedsRollingLimit
  return ⟨start, projected⟩

def requireSpendableReserve (w : World) (amount protectedMinReserve : ℕ) :
    Except Revert Unit := do
  let balance := w.token.balanceOf I.self
  require (amount ≤ balance) .insufficientReserve
  let remaining := balance - amount
  require (protectedMinReserve ≤ remaining) .insufficientReserve
  require (w.bridge.outstandingRefundablePrincipal ≤ remaining - protectedMinReserve)
    .insufficientReserve

def releaseLiability (s : Storage) (amount : ℕ) : Except Revert Storage := do
  let count ← checkedSub s.outstandingRefundableCount 1
  let principal ← checkedSub s.outstandingRefundablePrincipal amount
  return { s with
    outstandingRefundableCount := count, outstandingRefundablePrincipal := principal }

def validateTriple (t : Triple) (duplicate : Revert) : Except Revert Unit := do
  require (t.fst ≠ 0 ∧ t.snd ≠ 0 ∧ t.thd ≠ 0) .zeroAddress
  require (t.fst ≠ t.snd ∧ t.fst ≠ t.thd ∧ t.snd ≠ t.thd) duplicate

def validateSignerTriple (t : Triple) : Except Revert Unit := validateTriple t .duplicateSigner

def validateGuardianTriple (t : Triple) : Except Revert Unit :=
  validateTriple t .duplicateGuardian

/-- Write `member` for the three accounts of `t`, as the loops over a set do. -/
def mark (f : Address → Bool) (t : Triple) (member : Bool) : Address → Bool :=
  t.toList.foldl (fun g a => Function.update g a member) f

def installSigners (s : Storage) (newSigners : Triple) : Except Revert Storage := do
  validateSignerTriple newSigners
  return { s with signers := newSigners, isSigner := mark s.isSigner newSigners true }

def installGuardians (s : Storage) (newGuardians : Triple) : Except Revert Storage := do
  validateGuardianTriple newGuardians
  return { s with guardians := newGuardians, isGuardian := mark s.isGuardian newGuardians true }

def validateLimits (lim : Limits) : Except Revert Unit := do
  require (lim.inboundMin ≠ 0 ∧ lim.outboundMin ≠ 0) .invalidLimits
  require (lim.inboundMin ≤ lim.inboundMax) .invalidLimits
  require (lim.outboundMin ≤ lim.outboundMax) .invalidLimits
  require (lim.inboundMax ≤ lim.inboundRollingLimit) .invalidLimits
  require (lim.outboundMax ≤ lim.outboundRollingLimit) .invalidLimits
  require (lim.inboundMin % canonicalScale = 0 ∧ lim.inboundMax % canonicalScale = 0 ∧
    lim.inboundRollingLimit % canonicalScale = 0 ∧ lim.outboundMin % canonicalScale = 0 ∧
    lim.outboundMax % canonicalScale = 0 ∧ lim.outboundRollingLimit % canonicalScale = 0 ∧
    lim.protectedMinReserve % canonicalScale = 0) .invalidLimits

def Limits.words (lim : Limits) : List Word :=
  [lim.inboundMin, lim.inboundMax, lim.inboundRollingLimit, lim.outboundMin, lim.outboundMax,
    lim.outboundRollingLimit, lim.protectedMinReserve]

def setObligation (s : Storage) (index : ℕ) (ob : Obligation) : Storage :=
  { s with obligations := Function.update s.obligations index ob }

/-! ## Entry points: deposits and spending -/

/-- Returns the new obligation index with the state. -/
def deposit (w : World) (env : CallEnv) (route amount : ℕ) (destination : List UInt8) :
    Except Revert (ℕ × World) := do
  let s := w.bridge
  require (s.migrated = false) .alreadyMigrated
  require (s.migrationCommitted = false) .migrationAlreadyCommitted
  let (_, _, inbound) ← routeLegs I route
  require (inbound = true) (.notADepositRoute route)
  requireRouteOpen s route inbound
  require (destination.length ≠ 0 ∧ destination.length ≤ maxDestinationLen)
    .invalidDestinationLength
  let lim := s.limits
  requireCanonicalAmount amount
  require (lim.inboundMin ≤ amount) .amountBelowMinimum
  require (amount ≤ lim.inboundMax) .amountAboveMaximum
  let window ← consumeWindow s.inboundWindow env amount lim.inboundRollingLimit
  let balanceBefore := w.token.balanceOf I.self
  let token ← w.token.transferFrom I.self env.sender I.self amount
  let received ← checkedSub (token.balanceOf I.self) balanceBefore
  require (received = amount) (.inexactTransfer amount received)
  let index := s.obligationCount
  let principal ← checkedAdd 256 s.outstandingRefundablePrincipal amount
  let s' := { s with
    inboundWindow := window
    obligationCount := index + 1
    outstandingRefundableCount := s.outstandingRefundableCount + 1
    outstandingRefundablePrincipal := principal }
  return (index, ⟨setObligation s' index ⟨env.sender, .pending, route, amount⟩, token⟩)

def executePayout (w : World) (env : CallEnv) (req : PayoutRequest) (signatures : List Sig) :
    Except Revert World := do
  let s := w.bridge
  require (s.migrated = false) .alreadyMigrated
  let (sourceChain, destChain) ← requireOpenPayoutRoute I s req.route
  require (req.recipient ≠ 0) .zeroAddress
  let lim := s.limits
  requireCanonicalAmount req.amount
  require (lim.outboundMin ≤ req.amount) .amountBelowMinimum
  require (req.amount ≤ lim.outboundMax) .amountAboveMaximum
  requireSpendableReserve I w req.amount lim.protectedMinReserve
  authorize C I s env (payoutStructHash C I req sourceChain destChain) req.signerEpoch req.expiry
    signatures
  let s₁ ← consumeRequest C s actionPayout req.requestId
  let window ← consumeWindow s.outboundWindow env req.amount lim.outboundRollingLimit
  let token ← w.token.transfer I.self req.recipient req.amount
  return ⟨{ s₁ with outboundWindow := window }, token⟩

def executeTreasuryWithdraw (w : World) (env : CallEnv) (req : TreasuryWithdrawRequest)
    (signatures : List Sig) : Except Revert World := do
  let s := w.bridge
  require (s.migrated = false) .alreadyMigrated
  require (I.treasury ≠ 0) .treasuryNotConfigured
  require (req.treasury = I.treasury) (.wrongTreasury I.treasury req.treasury)
  require (s.depositsPaused = true ∧ s.payoutsPaused = true) .withdrawalRequiresPause
  requireCanonicalAmount req.amount
  requireSpendableReserve I w req.amount s.limits.protectedMinReserve
  authorize C I s env (treasuryWithdrawStructHash C I req) req.signerEpoch req.expiry signatures
  let s₁ ← consumeRequest C s actionTreasuryWithdraw req.requestId
  let reserveBefore := w.token.balanceOf I.self
  let treasuryBefore := w.token.balanceOf I.treasury
  let token ← w.token.transfer I.self I.treasury req.amount
  let left ← checkedSub reserveBefore (token.balanceOf I.self)
  require (left = req.amount) (.inexactTransfer req.amount left)
  let received ← checkedSub (token.balanceOf I.treasury) treasuryBefore
  require (received = req.amount) (.inexactTransfer req.amount received)
  return ⟨s₁, token⟩

/-! ## Entry points: the three exits of an obligation -/

def executeRefund (w : World) (env : CallEnv) (req : RefundRequest) (signatures : List Sig) :
    Except Revert World := do
  let s := w.bridge
  require (s.migrated = false) .alreadyMigrated
  require (req.obligationIndex < s.obligationCount) .obligationNotFound
  let ob := s.obligations req.obligationIndex
  require (ob.status = .pending) .obligationNotPending
  require (req.recipient = ob.depositor) .invalidRefundRecipient
  require (req.amount = ob.amount) .invalidRefundAmount
  let (source, dest, _) ← routeLegs I ob.route
  authorize C I s env (refundStructHash C I req ob.route source dest) req.signerEpoch req.expiry
    signatures
  let s₁ ← consumeRequest C s actionRefund req.requestId
  let s₂ ← releaseLiability (setObligation s₁ req.obligationIndex { ob with status := .refunded })
    req.amount
  let token ← w.token.transfer I.self req.recipient req.amount
  return ⟨s₂, token⟩

def executeSettlement (w : World) (env : CallEnv) (req : SettlementRequest)
    (signatures : List Sig) : Except Revert World := do
  let s := w.bridge
  require (s.migrated = false) .alreadyMigrated
  require (req.obligationIndex < s.obligationCount) .obligationNotFound
  let ob := s.obligations req.obligationIndex
  require (ob.status = .pending) .obligationNotPending
  let (source, dest, _) ← routeLegs I ob.route
  authorize C I s env (settlementStructHash C req ob.route source dest) req.signerEpoch req.expiry
    signatures
  let s₁ ← consumeRequest C s actionSettle req.requestId
  let s₂ ← releaseLiability (setObligation s₁ req.obligationIndex { ob with status := .settled })
    ob.amount
  return ⟨s₂, w.token⟩

def executeAbandonment (w : World) (env : CallEnv) (req : AbandonmentRequest)
    (signatures : List Sig) : Except Revert World := do
  let s := w.bridge
  require (s.migrated = false) .alreadyMigrated
  require (req.obligationIndex < s.obligationCount) .obligationNotFound
  let ob := s.obligations req.obligationIndex
  require (ob.status = .pending) .obligationNotPending
  let (source, dest, _) ← routeLegs I ob.route
  authorize C I s env (abandonmentStructHash C req ob.route source dest) req.signerEpoch req.expiry
    signatures
  let s₁ ← consumeRequest C s actionAbandon req.requestId
  let s₂ ← releaseLiability (setObligation s₁ req.obligationIndex { ob with status := .abandoned })
    ob.amount
  return ⟨s₂, w.token⟩

/-! ## Entry points: pause, routes, rotation, limits -/

def guardianPause (s : Storage) (env : CallEnv) (pauseDeposits pausePayouts : Bool) :
    Except Revert Storage := do
  require (s.isGuardian env.sender = true) .unauthorizedGuardian
  require (pauseDeposits = true ∨ pausePayouts = true) .nothingToPause
  return { s with
    depositsPaused := pauseDeposits || s.depositsPaused
    payoutsPaused := pausePayouts || s.payoutsPaused }

def setPaused (s : Storage) (env : CallEnv) (depositsPaused payoutsPaused : Bool)
    (nonce expiry : ℕ) (signatures : List Sig) : Except Revert Storage := do
  require (s.migrated = false) .alreadyMigrated
  require (s.migrationCommitted = true → depositsPaused = true ∧ payoutsPaused = true)
    .migrationAlreadyCommitted
  let s₁ ← governance C I s env actionSetPause [depositsPaused.toNat, payoutsPaused.toNat] nonce
    expiry signatures
  return { s₁ with depositsPaused := depositsPaused, payoutsPaused := payoutsPaused }

def setRouteEnabled (s : Storage) (env : CallEnv) (route : ℕ) (enabled : Bool)
    (nonce expiry : ℕ) (signatures : List Sig) : Except Revert Storage := do
  require (s.migrated = false) .alreadyMigrated
  require (s.migrationCommitted = true → enabled = false) .migrationAlreadyCommitted
  let _ ← routeLegs I route
  let s₁ ← governance C I s env actionSetRouteEnabled [route, enabled.toNat] nonce expiry
    signatures
  return { s₁ with routeEnabled := Function.update s₁.routeEnabled route enabled }

def rotateSigners (s : Storage) (env : CallEnv) (newSigners : Triple) (nonce expiry : ℕ)
    (signatures : List Sig) : Except Revert Storage := do
  require (s.migrated = false) .alreadyMigrated
  let s₁ ← governance C I s env actionRotateSigners newSigners.toList nonce expiry signatures
  let previousEpoch := s₁.signerEpoch
  let cleared := { s₁ with isSigner := mark s₁.isSigner s₁.signers false }
  let s₂ ← installSigners cleared newSigners
  let epoch ← checkedAdd 64 previousEpoch 1
  return { s₂ with signerEpoch := epoch }

def rotateGuardians (s : Storage) (env : CallEnv) (newGuardians : Triple) (nonce expiry : ℕ)
    (signatures : List Sig) : Except Revert Storage := do
  require (s.migrated = false) .alreadyMigrated
  let s₁ ← governance C I s env actionRotateGuardians newGuardians.toList nonce expiry signatures
  installGuardians { s₁ with isGuardian := mark s₁.isGuardian s₁.guardians false } newGuardians

def setLimits (s : Storage) (env : CallEnv) (newLimits : Limits) (nonce expiry : ℕ)
    (signatures : List Sig) : Except Revert Storage := do
  require (s.migrated = false) .alreadyMigrated
  let s₁ ← governance C I s env actionSetLimits newLimits.words nonce expiry signatures
  validateLimits newLimits
  return { s₁ with limits := newLimits }

/-! ## Entry points: migration -/

def commitMigration (s : Storage) (env : CallEnv) (successor : Address) (nonce expiry : ℕ)
    (signatures : List Sig) : Except Revert Storage := do
  require (s.migrated = false) .alreadyMigrated
  require (s.migrationCommitted = false) .migrationAlreadyCommitted
  require (s.depositsPaused = true ∧ s.payoutsPaused = true) .migrationRequiresPause
  require (successor ≠ 0) .zeroAddress
  require (successor ≠ I.self ∧ env.codeLength successor ≠ 0) .invalidSuccessor
  let s₁ ← governance C I s env actionCommitMigration [successor] nonce expiry signatures
  let token ← orFail (env.successorToken successor) .successorCallFailed
  require (token = I.token) .invalidSuccessor
  let protocolId ← orFail (env.successorProtocolId successor) .successorCallFailed
  require (protocolId = bridgeProtocolId C) .invalidSuccessor
  let committedAt ← now64 env
  return { s₁ with
    migrationSuccessor := successor
    migrationCommittedAt := committedAt
    migrationCommitted := true }

/-- The transfer at the end of `finalizeMigration`: the whole balance, if any. -/
def sweepReserve (token : Erc20) (successor : Address) : Except Revert Erc20 :=
  let amount := token.balanceOf I.self
  if amount ≠ 0 then token.transfer I.self successor amount else .ok token

def finalizeMigration (w : World) (env : CallEnv) (nonce expiry : ℕ) (signatures : List Sig) :
    Except Revert World := do
  let s := w.bridge
  require (s.migrated = false) .alreadyMigrated
  require (s.migrationCommitted = true) .migrationNotCommitted
  require (s.outstandingRefundableCount = 0 ∧ s.outstandingRefundablePrincipal = 0)
    (.outstandingRefundsRemain s.outstandingRefundableCount s.outstandingRefundablePrincipal)
  let s₁ ← governance C I s env actionFinalizeMigration [s.migrationSuccessor] nonce expiry
    signatures
  let token ← sweepReserve I w.token s.migrationSuccessor
  return ⟨{ s₁ with migrated := true }, token⟩

def vetoMigration (s : Storage) (env : CallEnv) : Except Revert Storage := do
  require (s.isGuardian env.sender = true) .unauthorizedGuardian
  require (s.migrated = false) .migrationAlreadyFinalized
  require (s.migrationCommitted = true) .noPendingMigration
  return { s with migrationSuccessor := 0, migrationCommittedAt := 0, migrationCommitted := false }

end Functions

/-! ## Construction -/

/-- Storage before the constructor runs. -/
def Storage.blank : Storage where
  signers := ⟨0, 0, 0⟩
  isSigner := fun _ => false
  signerEpoch := 0
  guardians := ⟨0, 0, 0⟩
  isGuardian := fun _ => false
  depositsPaused := false
  payoutsPaused := false
  routeEnabled := fun _ => false
  governanceNonce := 0
  limits := ⟨0, 0, 0, 0, 0, 0, 0⟩
  inboundWindow := ⟨0, 0⟩
  outboundWindow := ⟨0, 0⟩
  obligations := fun _ => .unset
  obligationCount := 0
  outstandingRefundableCount := 0
  outstandingRefundablePrincipal := 0
  executedRequest := fun _ => false
  migrationSuccessor := 0
  migrationCommittedAt := 0
  migrationCommitted := false
  migrated := false

/-- The constructor, over the immutables it fixes. `decimals` is what the token
answers, and `token₀` the token's state at deployment. -/
def construct (I : Immutables) (env : CallEnv) (decimals : ℕ) (signers guardians : Triple)
    (limits : Limits) (token₀ : Erc20) : Except Revert World := do
  require (I.token ≠ 0) .zeroAddress
  require (I.treasury ≠ I.self ∧ I.treasury ≠ I.token) .invalidTreasury
  require (I.protocolChainGoldcoin ≠ 0 ∧ I.protocolChainRobinhood ≠ 0) .zeroAddress
  require (I.protocolChainSolana ≠ 0) .zeroAddress
  require (I.protocolChainGoldcoin ≠ I.protocolChainRobinhood ∧
    I.protocolChainGoldcoin ≠ I.protocolChainSolana ∧
    I.protocolChainRobinhood ≠ I.protocolChainSolana) .duplicateProtocolChain
  require (decimals = expectedTokenDecimals) (.unexpectedTokenDecimals decimals)
  let s₁ ← installSigners .blank signers
  let s₂ ← installGuardians s₁ guardians
  validateLimits limits
  let startedAt ← now64 env
  return ⟨{ s₂ with
    limits := limits
    depositsPaused := true
    payoutsPaused := true
    inboundWindow := ⟨startedAt, 0⟩
    outboundWindow := ⟨startedAt, 0⟩ }, token₀⟩

/-! ## The transition system -/

/-- An external call with its arguments. -/
inductive Call (Sig : Type)
  | deposit (route amount : ℕ) (destination : List UInt8)
  | executePayout (req : PayoutRequest) (signatures : List Sig)
  | executeTreasuryWithdraw (req : TreasuryWithdrawRequest) (signatures : List Sig)
  | executeRefund (req : RefundRequest) (signatures : List Sig)
  | executeSettlement (req : SettlementRequest) (signatures : List Sig)
  | executeAbandonment (req : AbandonmentRequest) (signatures : List Sig)
  | guardianPause (pauseDeposits pausePayouts : Bool)
  | setPaused (depositsPaused payoutsPaused : Bool) (nonce expiry : ℕ) (signatures : List Sig)
  | setRouteEnabled (route : ℕ) (enabled : Bool) (nonce expiry : ℕ) (signatures : List Sig)
  | rotateSigners (newSigners : Triple) (nonce expiry : ℕ) (signatures : List Sig)
  | rotateGuardians (newGuardians : Triple) (nonce expiry : ℕ) (signatures : List Sig)
  | setLimits (newLimits : Limits) (nonce expiry : ℕ) (signatures : List Sig)
  | commitMigration (successor : Address) (nonce expiry : ℕ) (signatures : List Sig)
  | finalizeMigration (nonce expiry : ℕ) (signatures : List Sig)
  | vetoMigration

/-- One event of a run: a call to the contract, or anything third parties do to
the token, as long as they take nothing from the contract. -/
inductive Op (Sig : Type)
  | call (env : CallEnv) (c : Call Sig)
  | thirdParty (token : Erc20)

section System

variable {Sig : Type} (C : Crypto Sig) (I : Immutables)

/-- A storage-only entry point leaves the token alone. -/
def onBridge (w : World) (r : Except Revert Storage) : Except Revert World :=
  (fun s => ⟨s, w.token⟩) <$> r

def exec (w : World) (env : CallEnv) : Call Sig → Except Revert World
  | .deposit route amount destination => Prod.snd <$> deposit I w env route amount destination
  | .executePayout req signatures => executePayout C I w env req signatures
  | .executeTreasuryWithdraw req signatures => executeTreasuryWithdraw C I w env req signatures
  | .executeRefund req signatures => executeRefund C I w env req signatures
  | .executeSettlement req signatures => executeSettlement C I w env req signatures
  | .executeAbandonment req signatures => executeAbandonment C I w env req signatures
  | .guardianPause pauseDeposits pausePayouts =>
    onBridge w (guardianPause w.bridge env pauseDeposits pausePayouts)
  | .setPaused depositsPaused payoutsPaused nonce expiry signatures =>
    onBridge w (setPaused C I w.bridge env depositsPaused payoutsPaused nonce expiry signatures)
  | .setRouteEnabled route enabled nonce expiry signatures =>
    onBridge w (setRouteEnabled C I w.bridge env route enabled nonce expiry signatures)
  | .rotateSigners newSigners nonce expiry signatures =>
    onBridge w (rotateSigners C I w.bridge env newSigners nonce expiry signatures)
  | .rotateGuardians newGuardians nonce expiry signatures =>
    onBridge w (rotateGuardians C I w.bridge env newGuardians nonce expiry signatures)
  | .setLimits newLimits nonce expiry signatures =>
    onBridge w (setLimits C I w.bridge env newLimits nonce expiry signatures)
  | .commitMigration successor nonce expiry signatures =>
    onBridge w (commitMigration C I w.bridge env successor nonce expiry signatures)
  | .finalizeMigration nonce expiry signatures => finalizeMigration C I w env nonce expiry signatures
  | .vetoMigration => onBridge w (vetoMigration w.bridge env)

def step (w : World) : Op Sig → Option World
  | .call env c => (exec C I w env c).toOption
  | .thirdParty token =>
    if w.token.balanceOf I.self ≤ token.balanceOf I.self then some { w with token } else none

end System

end Evm
