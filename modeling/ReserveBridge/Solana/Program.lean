-- SUMMARY: The 24 instructions of the Solana reserve program, the transition function over them, and steps of the chain.
import ReserveBridge.Shared.Messages
import ReserveBridge.Solana.Accounts

/-!
# The Solana reserve program

The instructions of `programs/glc-reserve-bridge/src/instructions/`. An
instruction reads the chain and its environment and either fails, leaving
every account as it was, or yields the next chain. Events and log lines are
left out.
-/

namespace Solana
open Bytes Guard Shared

variable (rt : Runtime)

/-! ## Seeds -/

def seedBridgeConfig : List UInt8 := "bridge_config".toUTF8.toList
def seedAttestationKeySet : List UInt8 := "attestation_key_set".toUTF8.toList
def seedReserveAuthority : List UInt8 := "reserve_authority".toUTF8.toList
def seedDepositClaim : List UInt8 := "deposit_claim".toUTF8.toList
def seedWithdrawalObligation : List UInt8 := "withdrawal_obligation".toUTF8.toList
def seedRebalanceWithdrawal : List UInt8 := "rebalance_withdrawal".toUTF8.toList
def seedRebalancePolicy : List UInt8 := "rebalance_policy".toUTF8.toList
def seedPendingRebalancePolicy : List UInt8 := "pending_rebalance_policy".toUTF8.toList
def seedGovernanceAction : List UInt8 := "governance_action".toUTF8.toList
def seedPendingUpgrade : List UInt8 := "pending_upgrade".toUTF8.toList
def seedRollingVolumeWindow : List UInt8 := "rolling_volume_window".toUTF8.toList

/-! ## Set-up and administration -/

structure InitializeArgs where
  attestationKeys : List Pubkey
  threshold : UInt8
  governanceTimelockSeconds : Int64
  minTransferAmount : UInt64
  perTransferLimit : UInt64
  protectedMinimum : UInt64
  rollingVolumeLimit : UInt64
  rollingWindowSeconds : Int64
  upgradeTimelockSeconds : Int64

/-- `initialize`, a reserved word here. -/
def initializeBridge (s : Chain) (env : Env) (args : InitializeArgs) : Except BridgeError Chain := do
  vacant s.config
  vacant s.keySet
  vacant s.releaseWindow
  vacant s.depositWindow
  require (s.upgradeAuthority = some env.signer) .unauthorizedInitializer
  validateAttestationKeySet args.attestationKeys args.threshold
  require (0 < args.governanceTimelockSeconds) .zeroGovernanceTimelock
  require (0 < args.perTransferLimit) .zeroAmount
  require (0 < args.rollingVolumeLimit) .zeroAmount
  require (0 < args.rollingWindowSeconds) .zeroAmount
  require (0 < args.upgradeTimelockSeconds) .zeroUpgradeTimelock
  let now := env.unixTimestamp
  return { s with
    config := some {
      protocolVersion := protocolVersion
      admin := env.signer
      pendingAdmin := none
      paused := false
      releasePaused := false
      depositPaused := false
      bump := rt.bump [seedBridgeConfig]
      reserveTokenMint := Pubkey.default
      reserveTokenProgram := Pubkey.default
      reserveAuthorityBump := 0
      obligationCount := 0
      governanceTimelockSeconds := args.governanceTimelockSeconds
      minTransferAmount := args.minTransferAmount
      perTransferLimit := args.perTransferLimit
      protectedMinimum := args.protectedMinimum
      rollingVolumeLimit := args.rollingVolumeLimit
      rollingWindowSeconds := args.rollingWindowSeconds
      upgradeTimelockSeconds := args.upgradeTimelockSeconds }
    keySet := some {
      epoch := 0
      threshold := args.threshold
      bump := rt.bump [seedAttestationKeySet]
      keys := args.attestationKeys
      reserved := zeroPadded 32 [] }
    releaseWindow := some {
      direction := .goldcoinToSolana
      windowStart := now
      windowTotal := 0
      bump := rt.bump [seedRollingVolumeWindow, [0]]
      reserved := zeroPadded 16 [] }
    depositWindow := some {
      direction := .solanaToGoldcoin
      windowStart := now
      windowTotal := 0
      bump := rt.bump [seedRollingVolumeWindow, [1]]
      reserved := zeroPadded 16 [] } }

/-- The vault account is created by the associated token program, which fails
when the account exists or the mint belongs to another token program. -/
def initializeReserveVault (s : Chain) (env : Env) (reserveMint tokenProgram : Pubkey) :
    Except BridgeError Chain := do
  let config ← orFail s.config .accountNotInitialized
  let mint ← orFail (s.ledger.mints reserveMint) .accountNotInitialized
  require (tokenProgram ∈ rt.tokenPrograms) .invalidProgramId
  let address := rt.associatedTokenAddress rt.reserveAuthority reserveMint tokenProgram
  vacant (s.ledger.accounts address)
  require (mint.tokenProgram = tokenProgram) .incorrectProgramId
  requireAdmin config env
  require (config.reserveTokenMint = Pubkey.default) .reserveAlreadyConfigured
  validateMintExtensions mint
  return { s with
    config := some { config with
      reserveTokenMint := reserveMint
      reserveTokenProgram := tokenProgram
      reserveAuthorityBump := rt.bump [seedReserveAuthority] }
    ledger := { s.ledger with
      accounts := Function.update s.ledger.accounts address (some {
        tokenProgram := tokenProgram
        mint := reserveMint
        owner := rt.reserveAuthority
        amount := 0
        frozen := false
        extensions := some (rt.associatedExtensions tokenProgram) }) } }

inductive PauseScope
  | global | release | deposit
  deriving DecidableEq, Repr

def setPaused (s : Chain) (env : Env) (scope : PauseScope) (paused : Bool) :
    Except BridgeError Chain := do
  let config ← orFail s.config .accountNotInitialized
  requireAdmin config env
  match scope with
  | .global =>
    require (config.paused ≠ paused) .pauseStateUnchanged
    return { s with config := some { config with paused := paused } }
  | .release =>
    require (config.releasePaused ≠ paused) .pauseStateUnchanged
    return { s with config := some { config with releasePaused := paused } }
  | .deposit =>
    require (config.depositPaused ≠ paused) .pauseStateUnchanged
    return { s with config := some { config with depositPaused := paused } }

inductive LimitField
  | minTransferAmount | perTransferLimit | protectedMinimum | rollingVolumeLimit
  deriving DecidableEq, Repr

def setLimit (s : Chain) (env : Env) (field : LimitField) (newValue : UInt64) :
    Except BridgeError Chain := do
  let config ← orFail s.config .accountNotInitialized
  requireAdmin config env
  match field with
  | .minTransferAmount =>
    return { s with config := some { config with minTransferAmount := newValue } }
  | .perTransferLimit =>
    require (0 < newValue) .zeroAmount
    return { s with config := some { config with perTransferLimit := newValue } }
  | .protectedMinimum =>
    return { s with config := some { config with protectedMinimum := newValue } }
  | .rollingVolumeLimit =>
    require (0 < newValue) .zeroAmount
    return { s with config := some { config with rollingVolumeLimit := newValue } }

def transferAdmin (s : Chain) (env : Env) (newAdmin : Pubkey) : Except BridgeError Chain := do
  let config ← orFail s.config .accountNotInitialized
  requireAdmin config env
  require (newAdmin ≠ config.admin) .adminUnchanged
  return { s with config := some { config with pendingAdmin := some newAdmin } }

def acceptAdmin (s : Chain) (env : Env) : Except BridgeError Chain := do
  let config ← orFail s.config .accountNotInitialized
  let pending ← orFail config.pendingAdmin .noPendingAdmin
  require (pending = env.signer) .pendingAdminMismatch
  return { s with config := some { config with admin := pending, pendingAdmin := none } }

def resetRollingVolumeWindow (s : Chain) (env : Env) (direction : Direction) :
    Except BridgeError Chain := do
  let config ← orFail s.config .accountNotInitialized
  match direction with
  | .goldcoinToSolana =>
    let window ← orFail s.releaseWindow .accountNotInitialized
    requireAdmin config env
    require (config.paused = true) .bridgeNotPaused
    return { s with
      releaseWindow := some { window with windowStart := env.unixTimestamp, windowTotal := 0 } }
  | .solanaToGoldcoin =>
    let window ← orFail s.depositWindow .accountNotInitialized
    requireAdmin config env
    require (config.paused = true) .bridgeNotPaused
    return { s with
      depositWindow := some { window with windowStart := env.unixTimestamp, windowTotal := 0 } }

/-! ## Release and deposit -/

def releaseFromReserve (s : Chain) (env : Env) (txid : Bytes32) (vout : UInt32)
    (amount attestationEpoch : UInt64) (recipient : Pubkey) : Except BridgeError Chain := do
  let config ← orFail s.config .accountNotInitialized
  let keySet ← orFail s.keySet .accountNotInitialized
  let window ← orFail s.releaseWindow .accountNotInitialized
  vacant (s.claims.get? (txid, vout))
  requireReserveConfigured config
  let (mint, reserve) ← loadReserve rt s config
  let recipientAccount ← associatedTokenAccount rt s.ledger recipient config.reserveTokenMint
    config.reserveTokenProgram
  require (config.paused = false) .bridgeGloballyPaused
  require (config.releasePaused = false) .releaseDirectionPaused
  require (attestationEpoch = keySet.epoch) .staleAttestationEpoch
  enforceTransferAmount config amount
  validateMintExtensions mint
  validateTokenAccountExtensions reserve
  validateTokenAccountExtensions recipientAccount
  enforceProtectedMinimum reserve.amount config.protectedMinimum amount
  requireThresholdApproval rt env keySet
    (releaseClaimMessage config.protocolVersion rt.programId keySet.epoch txid vout amount
      recipient config.reserveTokenMint)
  -- recorded last, so a refused release consumes no window capacity
  let (outcome, window) :=
    enforceAndRecordRollingVolume config window amount env.unixTimestamp
  outcome
  let ledger ← s.ledger.transferChecked config.reserveTokenProgram (reserveTokenAccount rt config)
    config.reserveTokenMint
    (rt.associatedTokenAddress recipient config.reserveTokenMint config.reserveTokenProgram)
    rt.reserveAuthority amount mint.decimals
  let claims ← orFail (s.claims.init (txid, vout) {
    txid := txid
    vout := vout
    amount := amount
    recipient := recipient
    attestationEpoch := keySet.epoch
    protocolVersion := config.protocolVersion
    slotCreated := env.slot
    bump := rt.bump [seedDepositClaim, txid.toList, u32Bytes vout]
    reserved := zeroPadded 16 [] }) .accountAlreadyInUse
  return { s with releaseWindow := some window, claims := claims, ledger := ledger }

def depositToReserve (s : Chain) (env : Env) (amount : UInt64) (glcAddress : List UInt8) :
    Except BridgeError Chain := do
  let config ← orFail s.config .accountNotInitialized
  let window ← orFail s.depositWindow .accountNotInitialized
  vacant (s.obligations.get? config.obligationCount)
  requireReserveConfigured config
  let user := env.signer
  let (mint, reserve) ← loadReserve rt s config
  let userAccount ← associatedTokenAccount rt s.ledger user config.reserveTokenMint
    config.reserveTokenProgram
  require (config.paused = false) .bridgeGloballyPaused
  require (config.depositPaused = false) .depositDirectionPaused
  enforceTransferAmount config amount
  require (glcAddress ≠ [] ∧ glcAddress.length ≤ maxGlcAddressLen) .invalidGlcAddressLength
  validateMintExtensions mint
  validateTokenAccountExtensions userAccount
  validateTokenAccountExtensions reserve
  let index := config.obligationCount
  let nextCount ← orFail (checkedAddU64 index 1) .arithmeticOverflow
  let (outcome, window) :=
    enforceAndRecordRollingVolume config window amount env.unixTimestamp
  outcome
  let ledger ← s.ledger.transferChecked config.reserveTokenProgram
    (rt.associatedTokenAddress user config.reserveTokenMint config.reserveTokenProgram)
    config.reserveTokenMint (reserveTokenAccount rt config) user amount mint.decimals
  let obligations ← orFail (s.obligations.init index {
    index := index
    amount := amount
    requester := user
    glcAddress := zeroPadded 64 glcAddress
    glcAddressLen := UInt8.ofNat glcAddress.length
    status := .pending
    requestedAtSlot := env.slot
    protocolVersion := config.protocolVersion
    bump := rt.bump [seedWithdrawalObligation, u64Bytes index]
    reserved := zeroPadded 48 [] }) .accountAlreadyInUse
  return { s with
    config := some { config with obligationCount := nextCount }
    depositWindow := some window
    obligations := obligations
    ledger := ledger }

/-! ## Completion, treasury withdrawal and refund -/

/-- `hash(&obligation.glc_address[..len])`, the address a completion commits to. -/
def destCommitment (obligation : WithdrawalObligation) : Bytes32 :=
  rt.sha256 (obligation.glcAddress.toList.take obligation.glcAddressLen.toNat)

def recordGoldcoinCompletion (s : Chain) (env : Env) (index : UInt64) (payoutTxid : Bytes32)
    (payoutHeight amount attestationEpoch : UInt64) : Except BridgeError Chain := do
  let config ← orFail s.config .accountNotInitialized
  let keySet ← orFail s.keySet .accountNotInitialized
  let obligation ← orFail (s.obligations.get? index) .accountNotInitialized
  require (config.paused = false) .bridgeGloballyPaused
  require (0 < amount) .zeroAmount
  require (attestationEpoch = keySet.epoch) .staleAttestationEpoch
  require (obligation.status ≠ .completed) .obligationAlreadyCompleted
  require (obligation.status = .pending) .obligationNotPending
  require (obligation.payoutRecordIsUnset = true) .payoutRecordAlreadySet
  require (payoutTxid ≠ Vector.replicate 32 0) .zeroPayoutTxid
  require (0 < payoutHeight) .zeroPayoutHeight
  -- the address length is checked between the two halves of the approval
  let data ← verificationInstruction rt env
  require (1 ≤ obligation.glcAddressLen.toNat ∧ obligation.glcAddressLen.toNat ≤ maxGlcAddressLen)
    .invalidGlcAddressLength
  requireSigners keySet data
    (goldcoinCompletionMessage config.protocolVersion rt.programId keySet.epoch index payoutTxid
      payoutHeight amount (destCommitment rt obligation))
  return { s with
    obligations := s.obligations.modify index fun o => o.complete payoutTxid payoutHeight }

/-- The retired withdrawal: its accounts are still checked, its body refuses. -/
def rebalanceWithdraw (s : Chain) (env : Env) (nonce : UInt64) (destination : Pubkey) :
    Except BridgeError Chain := do
  let config ← orFail s.config .accountNotInitialized
  let _ ← orFail s.keySet .accountNotInitialized
  vacant (s.withdrawals.get? nonce)
  requireAdmin config env
  requireReserveConfigured config
  let _ ← loadReserve rt s config
  let destinationAccount ← orFail (s.ledger.accounts destination) .accountNotInitialized
  require (destinationAccount.mint = config.reserveTokenMint) .constraintTokenMint
  require (destinationAccount.tokenProgram = config.reserveTokenProgram) .constraintTokenProgram
  .error .rebalanceWithdrawRetired

def treasuryWithdraw (s : Chain) (env : Env) (nonce amount attestationEpoch : UInt64)
    (destination : Pubkey) : Except BridgeError Chain := do
  let config ← orFail s.config .accountNotInitialized
  let keySet ← orFail s.keySet .accountNotInitialized
  let policy ← orFail s.policy .accountNotInitialized
  vacant (s.withdrawals.get? nonce)
  requireAdmin config env
  requireReserveConfigured config
  let (mint, reserve) ← loadReserve rt s config
  let destinationAccount ← orFail (s.ledger.accounts destination) .accountNotInitialized
  require (destinationAccount.mint = config.reserveTokenMint) .constraintTokenMint
  require (destinationAccount.tokenProgram = config.reserveTokenProgram) .constraintTokenProgram
  require (config.paused = true) .bridgeNotPaused
  require (attestationEpoch = keySet.epoch) .staleAttestationEpoch
  require (0 < amount) .zeroRebalanceAmount
  require (nonce &&& nonceDomainRefund = 0) .wrongNonceNamespace
  require (1 ≤ policy.treasuryCount ∧ policy.treasuryCount.toNat ≤ maxTreasuryDestinations)
    .invalidRebalancePolicy
  require (policy.isAllowlisted destination = true) .destinationNotAllowlisted
  require (destination ≠ reserveTokenAccount rt config) .rebalanceDestinationIsReserveItself
  validateMintExtensions mint
  validateTokenAccountExtensions reserve
  validateTokenAccountExtensions destinationAccount
  enforceProtectedMinimum reserve.amount config.protectedMinimum amount
  requireThresholdApproval rt env keySet
    (treasuryWithdrawClaimMessage config.protocolVersion rt.programId keySet.epoch nonce amount
      destination config.reserveTokenMint (reserveTokenAccount rt config) policy.version)
  let ledger ← s.ledger.transferChecked config.reserveTokenProgram (reserveTokenAccount rt config)
    config.reserveTokenMint destination rt.reserveAuthority amount mint.decimals
  let withdrawals ← orFail (s.withdrawals.init nonce {
    nonce := nonce
    amount := amount
    destination := destination
    admin := env.signer
    attestationEpoch := attestationEpoch
    protocolVersion := config.protocolVersion
    slotCreated := env.slot
    bump := rt.bump [seedRebalanceWithdrawal, u64Bytes nonce]
    reserved := withdrawalReserved withdrawalClassTreasury }) .accountAlreadyInUse
  -- the balance after, which only the event reports
  let _ ← orFail (checkedSubU64 reserve.amount amount) .arithmeticUnderflow
  return { s with withdrawals := withdrawals, ledger := ledger }

def refundWithdraw (s : Chain) (env : Env)
    (nonce amount attestationEpoch obligationIndex : UInt64) : Except BridgeError Chain := do
  let config ← orFail s.config .accountNotInitialized
  let keySet ← orFail s.keySet .accountNotInitialized
  let obligation ← orFail (s.obligations.get? obligationIndex) .accountNotInitialized
  vacant (s.withdrawals.get? nonce)
  requireAdmin config env
  requireReserveConfigured config
  let (mint, reserve) ← loadReserve rt s config
  let requester := obligation.requester
  let destination := rt.associatedTokenAddress requester config.reserveTokenMint
    config.reserveTokenProgram
  let destinationAccount ← associatedTokenAccount rt s.ledger requester config.reserveTokenMint
    config.reserveTokenProgram
  require (config.paused = true) .bridgeNotPaused
  require (attestationEpoch = keySet.epoch) .staleAttestationEpoch
  require (0 < amount) .zeroRebalanceAmount
  require (nonce &&& nonceDomainRefund ≠ 0) .wrongNonceNamespace
  require (obligation.status = .pending) .obligationNotPending
  require (amount = obligation.amount) .refundAmountMismatch
  validateMintExtensions mint
  validateTokenAccountExtensions reserve
  validateTokenAccountExtensions destinationAccount
  enforceProtectedMinimum reserve.amount config.protectedMinimum amount
  requireThresholdApproval rt env keySet
    (refundWithdrawClaimMessage config.protocolVersion rt.programId keySet.epoch nonce amount
      destination config.reserveTokenMint (reserveTokenAccount rt config) obligationIndex
      requester)
  let ledger ← s.ledger.transferChecked config.reserveTokenProgram (reserveTokenAccount rt config)
    config.reserveTokenMint destination rt.reserveAuthority amount mint.decimals
  let withdrawals ← orFail (s.withdrawals.init nonce {
    nonce := nonce
    amount := amount
    destination := destination
    admin := env.signer
    attestationEpoch := attestationEpoch
    protocolVersion := config.protocolVersion
    slotCreated := env.slot
    bump := rt.bump [seedRebalanceWithdrawal, u64Bytes nonce]
    reserved := withdrawalReserved withdrawalClassRefund }) .accountAlreadyInUse
  -- the balance after, which only the event reports
  let _ ← orFail (checkedSubU64 reserve.amount amount) .arithmeticUnderflow
  return { s with
    withdrawals := withdrawals
    obligations := s.obligations.modify obligationIndex fun o => o.refund
    ledger := ledger }

/-! ## Attestation key rotation -/

/-- The message that proposes a rotation to `keys` and `threshold`. -/
def proposeRotationMessage (config : BridgeConfig) (keySet : AttestationKeySet)
    (keys : List Pubkey) (threshold : UInt8) : List UInt8 :=
  governanceMessage config.protocolVersion rt.programId keySet.epoch actionProposeRotation
    (rt.sha256 (rotationParams threshold keys))

def proposeAttestationKeyRotation (s : Chain) (env : Env) (keys : List Pubkey)
    (threshold : UInt8) : Except BridgeError Chain := do
  let config ← orFail s.config .accountNotInitialized
  let keySet ← orFail s.keySet .accountNotInitialized
  vacant s.pendingAction
  validateAttestationKeySet keys threshold
  requireThresholdApproval rt env keySet (proposeRotationMessage rt config keySet keys threshold)
  let eta ← orFail (checkedAddI64 env.unixTimestamp config.governanceTimelockSeconds)
    .arithmeticOverflow
  return { s with
    pendingAction := some {
      action := actionProposeRotation
      proposedUnderEpoch := keySet.epoch
      eta := eta
      threshold := threshold
      keys := keys
      bump := rt.bump [seedGovernanceAction]
      reserved := zeroPadded 24 [] } }

def executeAttestationKeyRotation (s : Chain) (env : Env) : Except BridgeError Chain := do
  let _ ← orFail s.config .accountNotInitialized
  let keySet ← orFail s.keySet .accountNotInitialized
  let pending ← orFail s.pendingAction .accountNotInitialized
  require (pending.action = actionProposeRotation) .wrongGovernanceAction
  require (pending.eta ≤ env.unixTimestamp) .governanceTimelockNotElapsed
  require (keySet.epoch = pending.proposedUnderEpoch) .staleGovernanceProposal
  validateAttestationKeySet pending.keys pending.threshold
  let epoch ← orFail (checkedAddU64 keySet.epoch 1) .arithmeticOverflow
  return { s with
    keySet := some { keySet with
      epoch := epoch
      threshold := pending.threshold
      keys := pending.keys }
    pendingAction := none }

def cancelAttestationKeyRotation (s : Chain) (env : Env) : Except BridgeError Chain := do
  let config ← orFail s.config .accountNotInitialized
  let keySet ← orFail s.keySet .accountNotInitialized
  let pending ← orFail s.pendingAction .accountNotInitialized
  requireThresholdApproval rt env keySet
    (governanceMessage config.protocolVersion rt.programId keySet.epoch actionCancelRotation
      (rt.sha256 (cancelParams pending.action pending.eta)))
  return { s with pendingAction := none }

/-! ## Rebalance policy -/

/-- The message that proposes, or with the other action installs, a policy. -/
def policyMessage (config : BridgeConfig) (keySet : AttestationKeySet) (action : UInt8)
    (treasuries : List Pubkey) : List UInt8 :=
  governanceMessage config.protocolVersion rt.programId keySet.epoch action
    (rt.sha256 (rebalancePolicyParams treasuries))

def initializeRebalancePolicy (s : Chain) (env : Env) (treasuries : List Pubkey) :
    Except BridgeError Chain := do
  let config ← orFail s.config .accountNotInitialized
  let keySet ← orFail s.keySet .accountNotInitialized
  vacant s.policy
  requireReserveConfigured config
  let _ ← loadReserve rt s config
  validateRebalancePolicy treasuries (reserveTokenAccount rt config)
  requireThresholdApproval rt env keySet
    (policyMessage rt config keySet actionInitializeRebalancePolicy treasuries)
  return { s with
    policy := some {
      version := 0
      bump := rt.bump [seedRebalancePolicy]
      treasuryCount := UInt8.ofNat treasuries.length
      treasuries := packTreasuries treasuries
      reserved := zeroPadded 64 [] } }

def proposeRebalancePolicy (s : Chain) (env : Env) (treasuries : List Pubkey) :
    Except BridgeError Chain := do
  let config ← orFail s.config .accountNotInitialized
  let keySet ← orFail s.keySet .accountNotInitialized
  let _ ← orFail s.policy .accountNotInitialized
  vacant s.pendingPolicy
  let _ ← loadReserve rt s config
  validateRebalancePolicy treasuries (reserveTokenAccount rt config)
  require (0 < config.governanceTimelockSeconds) .zeroGovernanceTimelock
  requireThresholdApproval rt env keySet
    (policyMessage rt config keySet actionProposeRebalancePolicy treasuries)
  let eta ← orFail (checkedAddI64 env.unixTimestamp config.governanceTimelockSeconds)
    .arithmeticOverflow
  return { s with
    pendingPolicy := some {
      proposedUnderEpoch := keySet.epoch
      eta := eta
      treasuryCount := UInt8.ofNat treasuries.length
      treasuries := packTreasuries treasuries
      bump := rt.bump [seedPendingRebalancePolicy]
      reserved := zeroPadded 32 [] } }

def executeRebalancePolicy (s : Chain) (env : Env) : Except BridgeError Chain := do
  let config ← orFail s.config .accountNotInitialized
  let keySet ← orFail s.keySet .accountNotInitialized
  let policy ← orFail s.policy .accountNotInitialized
  let pending ← orFail s.pendingPolicy .accountNotInitialized
  let _ ← loadReserve rt s config
  require (pending.eta ≤ env.unixTimestamp) .rebalancePolicyTimelockNotElapsed
  require (keySet.epoch = pending.proposedUnderEpoch) .staleRebalancePolicyProposal
  -- validated again, against the reserve account in force now
  let count := min pending.treasuryCount.toNat maxTreasuryDestinations
  let treasuries := pending.treasuries.toList.take count
  validateRebalancePolicy treasuries (reserveTokenAccount rt config)
  let version ← orFail (checkedAddU64 policy.version 1) .arithmeticOverflow
  return { s with
    policy := some { policy with
      version := version
      treasuryCount := UInt8.ofNat count
      treasuries := packTreasuries treasuries }
    pendingPolicy := none }

def cancelRebalancePolicy (s : Chain) (env : Env) : Except BridgeError Chain := do
  let config ← orFail s.config .accountNotInitialized
  let keySet ← orFail s.keySet .accountNotInitialized
  let pending ← orFail s.pendingPolicy .accountNotInitialized
  requireThresholdApproval rt env keySet
    (governanceMessage config.protocolVersion rt.programId keySet.epoch
      actionCancelRebalancePolicy
      (rt.sha256 (cancelParams actionProposeRebalancePolicy pending.eta)))
  return { s with pendingPolicy := none }

/-! ## Program upgrade -/

def acceptUpgradeAuthority (s : Chain) (env : Env) : Except BridgeError Chain := do
  let _ ← orFail s.config .accountNotInitialized
  require (s.upgradeAuthority = some env.signer) .notCurrentUpgradeAuthority
  return { s with upgradeAuthority := some rt.upgradeAuthorityPda }

def proposeUpgrade (s : Chain) (env : Env) (bufferAddress : Pubkey) :
    Except BridgeError Chain := do
  let config ← orFail s.config .accountNotInitialized
  vacant s.pendingUpgrade
  requireAdmin config env
  require (0 < config.upgradeTimelockSeconds) .zeroUpgradeTimelock
  let now := env.unixTimestamp
  let eta ← orFail (checkedAddI64 now config.upgradeTimelockSeconds) .arithmeticOverflow
  return { s with
    pendingUpgrade := some {
      bufferAddress := bufferAddress
      proposedAt := now
      eta := eta
      proposedBy := env.signer
      bump := rt.bump [seedPendingUpgrade]
      reserved := zeroPadded 16 [] } }

def cancelUpgrade (s : Chain) (env : Env) : Except BridgeError Chain := do
  let config ← orFail s.config .accountNotInitialized
  let _ ← orFail s.pendingUpgrade .accountNotInitialized
  requireAdmin config env
  return { s with pendingUpgrade := none }

/-- The loader's own checks of the buffer are left out: a run of the model may
execute more upgrades than the chain would. The upgraded program is taken to be
this one again. -/
def executeUpgrade (s : Chain) (env : Env) (buffer : Pubkey) : Except BridgeError Chain := do
  let _ ← orFail s.config .accountNotInitialized
  let pending ← orFail s.pendingUpgrade .accountNotInitialized
  require (pending.eta ≤ env.unixTimestamp) .upgradeTimelockNotElapsed
  require (buffer = pending.bufferAddress) .wrongUpgradeBuffer
  require (s.upgradeAuthority = some rt.upgradeAuthorityPda) .upgradeAuthorityNotYetAccepted
  return { s with pendingUpgrade := none }

/-! ## Transitions -/

/-- An instruction with its arguments and the accounts its caller chooses. -/
inductive Instruction
  | initializeBridge (args : InitializeArgs)
  | initializeReserveVault (reserveMint tokenProgram : Pubkey)
  | setPaused (scope : PauseScope) (paused : Bool)
  | setLimit (field : LimitField) (newValue : UInt64)
  | transferAdmin (newAdmin : Pubkey)
  | acceptAdmin
  | resetRollingVolumeWindow (direction : Direction)
  | proposeAttestationKeyRotation (keys : List Pubkey) (threshold : UInt8)
  | executeAttestationKeyRotation
  | cancelAttestationKeyRotation
  | releaseFromReserve (txid : Bytes32) (vout : UInt32) (amount attestationEpoch : UInt64)
      (recipient : Pubkey)
  | depositToReserve (amount : UInt64) (glcAddress : List UInt8)
  | recordGoldcoinCompletion (index : UInt64) (payoutTxid : Bytes32)
      (payoutHeight amount attestationEpoch : UInt64)
  | acceptUpgradeAuthority
  | proposeUpgrade (bufferAddress : Pubkey)
  | executeUpgrade (buffer : Pubkey)
  | cancelUpgrade
  | rebalanceWithdraw (nonce amount attestationEpoch : UInt64) (destination : Pubkey)
  | treasuryWithdraw (nonce amount attestationEpoch : UInt64) (destination : Pubkey)
  | refundWithdraw (nonce amount attestationEpoch obligationIndex : UInt64)
  | initializeRebalancePolicy (treasuries : List Pubkey)
  | proposeRebalancePolicy (treasuries : List Pubkey)
  | executeRebalancePolicy
  | cancelRebalancePolicy

def exec (s : Chain) (env : Env) : Instruction → Except BridgeError Chain
  | .initializeBridge args => initializeBridge rt s env args
  | .initializeReserveVault reserveMint tokenProgram =>
    initializeReserveVault rt s env reserveMint tokenProgram
  | .setPaused scope paused => setPaused s env scope paused
  | .setLimit field newValue => setLimit s env field newValue
  | .transferAdmin newAdmin => transferAdmin s env newAdmin
  | .acceptAdmin => acceptAdmin s env
  | .resetRollingVolumeWindow direction => resetRollingVolumeWindow s env direction
  | .proposeAttestationKeyRotation keys threshold =>
    proposeAttestationKeyRotation rt s env keys threshold
  | .executeAttestationKeyRotation => executeAttestationKeyRotation s env
  | .cancelAttestationKeyRotation => cancelAttestationKeyRotation rt s env
  | .releaseFromReserve txid vout amount attestationEpoch recipient =>
    releaseFromReserve rt s env txid vout amount attestationEpoch recipient
  | .depositToReserve amount glcAddress => depositToReserve rt s env amount glcAddress
  | .recordGoldcoinCompletion index payoutTxid payoutHeight amount attestationEpoch =>
    recordGoldcoinCompletion rt s env index payoutTxid payoutHeight amount attestationEpoch
  | .acceptUpgradeAuthority => acceptUpgradeAuthority rt s env
  | .proposeUpgrade bufferAddress => proposeUpgrade rt s env bufferAddress
  | .executeUpgrade buffer => executeUpgrade rt s env buffer
  | .cancelUpgrade => cancelUpgrade s env
  | .rebalanceWithdraw nonce _ _ destination => rebalanceWithdraw rt s env nonce destination
  | .treasuryWithdraw nonce amount attestationEpoch destination =>
    treasuryWithdraw rt s env nonce amount attestationEpoch destination
  | .refundWithdraw nonce amount attestationEpoch obligationIndex =>
    refundWithdraw rt s env nonce amount attestationEpoch obligationIndex
  | .initializeRebalancePolicy treasuries => initializeRebalancePolicy rt s env treasuries
  | .proposeRebalancePolicy treasuries => proposeRebalancePolicy rt s env treasuries
  | .executeRebalancePolicy => executeRebalancePolicy rt s env
  | .cancelRebalancePolicy => cancelRebalancePolicy rt s env

/-- The runtime lets an instruction run: no signature is the reserve
authority's, which has no private key, and an ed25519 instruction earlier in
the transaction was accepted. -/
def Admissible (env : Env) : Prop :=
  env.signer ≠ rt.reserveAuthority ∧
    ∀ data, env.previous = some (rt.ed25519Program, data) → rt.ed25519Accepts data = true

instance (env : Env) : Decidable (Admissible rt env) :=
  match h : env.previous with
  | none => decidable_of_iff (env.signer ≠ rt.reserveAuthority) (by simp [Admissible, h])
  | some (program, data) =>
    decidable_of_iff (env.signer ≠ rt.reserveAuthority ∧
      (program = rt.ed25519Program → rt.ed25519Accepts data = true)) (by
        simp only [Admissible, h, Option.some.injEq, Prod.mk.injEq]
        grind)

/-- What other programs may do to the token ledger: whatever the reserve
authority does not have to sign for. Its accounts keep their owner, mint and
token program and are not debited. -/
def Undebited (ledger ledger' : Ledger) : Prop :=
  ∀ address account, ledger.accounts address = some account →
    account.owner = rt.reserveAuthority →
      ∃ account', ledger'.accounts address = some account' ∧
        account'.owner = account.owner ∧ account'.mint = account.mint ∧
        account'.tokenProgram = account.tokenProgram ∧ account.amount ≤ account'.amount

/-- A change of the token ledger made outside the program. -/
structure External where
  apply : Ledger → Ledger
  undebited : ∀ ledger, Undebited rt ledger (apply ledger)

/-- A step of the chain: an instruction of the program, or something outside it
that changes the token ledger or the upgrade authority. The program's own
accounts are out of reach. -/
inductive Op
  | call (env : Env) (instruction : Instruction)
  | external (change : External rt) (upgradeAuthority : Option Pubkey)

/-- One step of the chain. `none` is a refused operation. -/
def step (s : Chain) : Op rt → Option Chain
  | .call env instruction =>
    if Admissible rt env then (exec rt s env instruction).toOption else none
  | .external change upgradeAuthority =>
    some { s with ledger := change.apply s.ledger, upgradeAuthority := upgradeAuthority }

end Solana
