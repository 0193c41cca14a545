-- SUMMARY: Data model of the Solana reserve program: constants, errors, program accounts, the SPL token ledger, and the runtime the program is called from.
import ReserveBridge.Lib.Bytes
import ReserveBridge.Lib.Guard
import ReserveBridge.Lib.Store
import Mathlib.Logic.Function.Basic

/-!
# The Solana reserve program: data model

The types of `programs/glc-reserve-bridge/src/{constants,errors,state}.rs`,
with the fixed-width integers of the source. A program-derived account is
found by its seeds alone, so each singleton is an optional field of the chain
state and each family of records a create-once store keyed by the seeds that
vary.
-/

namespace Solana
open Bytes Guard

abbrev Pubkey := Bytes32

/-- Membership in a list of keys is decided through this. -/
instance : LawfulBEq Pubkey := Vector.instLawfulBEq

/-- `Pubkey::default()`. -/
def Pubkey.default : Pubkey := Vector.replicate 32 0

/-! ## Constants -/

def protocolVersion : UInt8 := 1
def maxAttestationKeys : ℕ := 8
def maxGlcAddressLen : ℕ := 64
def maxTreasuryDestinations : ℕ := 4
/-- `NONCE_DOMAIN_REFUND`, the bit that separates refund from treasury nonces. -/
def nonceDomainRefund : UInt64 := (1 : UInt64) <<< 63
def withdrawalClassTreasury : UInt8 := 0x01
def withdrawalClassRefund : UInt8 := 0x02

/-! ## Errors -/

/-- The program's error taxonomy, then the failures raised by the framework and
the token program. -/
inductive BridgeError
  | emptyAttestationKeySet | tooManyAttestationKeys | duplicateAttestationKey
  | invalidAttestationKey | zeroThreshold | thresholdExceedsKeyCount | thresholdBelowMinimum
  | unauthorizedInitializer | unauthorizedAdmin | pauseStateUnchanged | adminUnchanged
  | noPendingAdmin | pendingAdminMismatch | arithmeticOverflow | arithmeticUnderflow
  | reserveAlreadyConfigured | reserveNotConfigured | wrongReserveMint | bridgeGloballyPaused
  | releaseDirectionPaused | depositDirectionPaused | wrongTokenProgram
  | unsupportedTokenExtension | unreadableTokenState
  | staleAttestationEpoch | missingSignatureVerification | malformedSignatureVerification
  | signatureMessageMismatch | unknownAttestationSigner | duplicateAttestationSignature
  | insufficientSignatures
  | zeroAmount | belowMinimumTransfer | exceedsPerTransferLimit | exceedsRollingVolumeLimit
  | invalidGlcAddressLength | insufficientReserveBalance
  | zeroGovernanceTimelock | wrongGovernanceAction | governanceTimelockNotElapsed
  | staleGovernanceProposal
  | obligationAlreadyCompleted | obligationNotPending | payoutRecordAlreadySet | zeroPayoutTxid
  | zeroPayoutHeight
  | zeroRebalanceAmount | bridgeNotPaused | rebalanceDestinationIsReserveItself
  | rebalanceWithdrawRetired | invalidRebalancePolicy | destinationNotAllowlisted
  | wrongNonceNamespace | emptyTreasuryAllowlist | tooManyTreasuryDestinations
  | duplicateTreasuryDestination | invalidTreasuryDestination
  | treasuryDestinationIsReserveItself | rebalancePolicyTimelockNotElapsed
  | staleRebalancePolicyProposal | refundAmountMismatch
  | zeroUpgradeTimelock | upgradeTimelockNotElapsed | wrongUpgradeBuffer
  | upgradeAuthorityNotYetAccepted | notCurrentUpgradeAuthority
  | accountNotInitialized | accountAlreadyInUse | constraintTokenMint | constraintTokenOwner
  | constraintTokenProgram | invalidProgramId | incorrectProgramId | insufficientFunds
  | mintMismatch | mintDecimalsMismatch | ownerMismatch | accountFrozen
  deriving DecidableEq, Repr

/-! ## Program accounts -/

inductive Direction
  | goldcoinToSolana | solanaToGoldcoin
  deriving DecidableEq, Repr

structure BridgeConfig where
  protocolVersion : UInt8
  admin : Pubkey
  pendingAdmin : Option Pubkey
  paused : Bool
  releasePaused : Bool
  depositPaused : Bool
  bump : UInt8
  reserveTokenMint : Pubkey
  reserveTokenProgram : Pubkey
  reserveAuthorityBump : UInt8
  obligationCount : UInt64
  governanceTimelockSeconds : Int64
  minTransferAmount : UInt64
  perTransferLimit : UInt64
  protectedMinimum : UInt64
  rollingVolumeLimit : UInt64
  rollingWindowSeconds : Int64
  upgradeTimelockSeconds : Int64

structure AttestationKeySet where
  epoch : UInt64
  threshold : UInt8
  bump : UInt8
  keys : List Pubkey
  reserved : Vector UInt8 32

structure PendingGovernanceAction where
  action : UInt8
  proposedUnderEpoch : UInt64
  eta : Int64
  threshold : UInt8
  keys : List Pubkey
  bump : UInt8
  reserved : Vector UInt8 24

structure PendingProgramUpgrade where
  bufferAddress : Pubkey
  proposedAt : Int64
  eta : Int64
  proposedBy : Pubkey
  bump : UInt8
  reserved : Vector UInt8 16

structure DepositClaim where
  txid : Bytes32
  vout : UInt32
  amount : UInt64
  recipient : Pubkey
  attestationEpoch : UInt64
  protocolVersion : UInt8
  slotCreated : UInt64
  bump : UInt8
  reserved : Vector UInt8 16

structure RebalanceWithdrawal where
  nonce : UInt64
  amount : UInt64
  destination : Pubkey
  admin : Pubkey
  attestationEpoch : UInt64
  protocolVersion : UInt8
  slotCreated : UInt64
  bump : UInt8
  reserved : Vector UInt8 16

structure RebalancePolicy where
  version : UInt64
  bump : UInt8
  treasuryCount : UInt8
  treasuries : Vector Pubkey 4
  reserved : Vector UInt8 64

structure PendingRebalancePolicy where
  proposedUnderEpoch : UInt64
  eta : Int64
  treasuryCount : UInt8
  treasuries : Vector Pubkey 4
  bump : UInt8
  reserved : Vector UInt8 32

inductive WithdrawalStatus
  | pending | broadcast | completed | refunded
  deriving DecidableEq, Repr

structure WithdrawalObligation where
  index : UInt64
  amount : UInt64
  requester : Pubkey
  glcAddress : Vector UInt8 64
  glcAddressLen : UInt8
  status : WithdrawalStatus
  requestedAtSlot : UInt64
  protocolVersion : UInt8
  bump : UInt8
  reserved : Vector UInt8 48

structure RollingVolumeWindow where
  direction : Direction
  windowStart : Int64
  windowTotal : UInt64
  bump : UInt8
  reserved : Vector UInt8 16

/-! ## The token ledger -/

/-- The Token-2022 extension types. -/
inductive ExtensionType
  | uninitialized | transferFeeConfig | transferFeeAmount | mintCloseAuthority
  | confidentialTransferMint | confidentialTransferAccount | defaultAccountState
  | immutableOwner | memoTransfer | nonTransferable | interestBearingConfig | cpiGuard
  | permanentDelegate | nonTransferableAccount | transferHook | transferHookAccount
  | confidentialTransferFeeConfig | confidentialTransferFeeAmount | metadataPointer
  | tokenMetadata | groupPointer | tokenGroup | groupMemberPointer | tokenGroupMember
  | confidentialMintBurn
  deriving DecidableEq, Repr

/-- A mint, with the extensions its data lists. `none` is data that does not
parse. -/
structure Mint where
  tokenProgram : Pubkey
  decimals : UInt8
  extensions : Option (List ExtensionType)

structure TokenAccount where
  tokenProgram : Pubkey
  mint : Pubkey
  owner : Pubkey
  amount : UInt64
  frozen : Bool
  extensions : Option (List ExtensionType)

/-- The token accounts and mints of the chain. The default key is the system
program, which is not a mint. -/
structure Ledger where
  mints : Pubkey → Option Mint
  accounts : Pubkey → Option TokenAccount
  default_not_mint : mints Pubkey.default = none

/-! ## The runtime -/

/-- What the program uses of the chain it runs on: its own id, SHA-256, the
derivation of the addresses it signs for, associated token addresses and the
extensions of a newly created one, the bump of a derived address, the ids of
other programs, and what the ed25519 program verifies. -/
structure Runtime where
  programId : Pubkey
  sha256 : List UInt8 → Bytes32
  reserveAuthority : Pubkey
  upgradeAuthorityPda : Pubkey
  associatedTokenAddress : Pubkey → Pubkey → Pubkey → Pubkey
  associatedExtensions : Pubkey → List ExtensionType
  bump : List (List UInt8) → UInt8
  ed25519Program : Pubkey
  tokenPrograms : List Pubkey
  /-- The ed25519 program accepts an instruction with this data. -/
  ed25519Accepts : List UInt8 → Bool

/-- An instruction's environment: its one signer, the clock, and the program
and data of the instruction before it in the transaction. -/
structure Env where
  signer : Pubkey
  unixTimestamp : Int64
  slot : UInt64
  previous : Option (Pubkey × List UInt8)

/-- The accounts an instruction can touch. `upgradeAuthority` is the one
recorded in the program data account. -/
structure Chain where
  config : Option BridgeConfig
  keySet : Option AttestationKeySet
  releaseWindow : Option RollingVolumeWindow
  depositWindow : Option RollingVolumeWindow
  pendingAction : Option PendingGovernanceAction
  policy : Option RebalancePolicy
  pendingPolicy : Option PendingRebalancePolicy
  pendingUpgrade : Option PendingProgramUpgrade
  upgradeAuthority : Option Pubkey
  claims : Store (Bytes32 × UInt32) DepositClaim
  obligations : Store UInt64 WithdrawalObligation
  withdrawals : Store UInt64 RebalanceWithdrawal
  ledger : Ledger

/-! ## Machine arithmetic -/

/-- `u64::checked_add`. -/
def checkedAddU64 (a b : UInt64) : Option UInt64 :=
  if a.toNat + b.toNat < 2 ^ 64 then some (a + b) else none

/-- `u64::checked_sub`. -/
def checkedSubU64 (a b : UInt64) : Option UInt64 :=
  if b.toNat ≤ a.toNat then some (a - b) else none

/-- `i64::checked_add`. -/
def checkedAddI64 (a b : Int64) : Option Int64 :=
  if -2 ^ 63 ≤ a.toInt + b.toInt ∧ a.toInt + b.toInt < 2 ^ 63 then some (a + b) else none

/-- `i64::saturating_sub`. -/
def saturatingSubI64 (a b : Int64) : Int64 := Int64.ofIntClamp (a.toInt - b.toInt)

theorem checkedAddU64_eq_some {a b c : UInt64} (h : checkedAddU64 a b = some c) :
    c.toNat = a.toNat + b.toNat := by
  simp only [checkedAddU64] at h
  split_ifs at h with hlt
  obtain rfl := Option.some.inj h
  rw [UInt64.toNat_add, Nat.mod_eq_of_lt hlt]

theorem checkedSubU64_eq_some {a b c : UInt64} (h : checkedSubU64 a b = some c) :
    c.toNat + b.toNat = a.toNat := by
  simp only [checkedSubU64] at h
  split_ifs at h with hle
  obtain rfl := Option.some.inj h
  rw [UInt64.toNat_sub_of_le _ _ (UInt64.le_iff_toNat_le.mpr hle)]
  omega

theorem checkedAddI64_eq_some {a b c : Int64} (h : checkedAddI64 a b = some c) :
    c.toInt = a.toInt + b.toInt := by
  simp only [checkedAddI64] at h
  split_ifs at h with hrange
  obtain rfl := Option.some.inj h
  rw [Int64.toInt_add, Int.bmod_eq_of_le] <;> omega

end Solana
