-- SUMMARY: Data model of the Robinhood reserve contract: words, reverts, storage, requests, the ERC-20 it custodies, and the hash and signature primitives it relies on.
import ReserveBridge.Lib.Guard
import Mathlib.Algebra.Ring.Nat
import Mathlib.Data.Nat.Notation
import Mathlib.Logic.Function.Basic

/-!
# The Robinhood reserve contract: data model

The types of `contracts/src/GlcRobinhoodBridge.sol`. Every value of a Solidity
value type is a natural number. Where the contract relies on a width (checked
additions, the `uint64` clock), the width appears in the function that checks
it. The three counters it advances `unchecked` by one per call
(`obligationCount`, `outstandingRefundableCount`, `governanceNonce`) are plain
naturals: wrapping one takes 2^256 transactions.
-/

namespace Evm
open Guard

abbrev Word := ℕ
abbrev Address := ℕ

/-! ## Reverts and checked arithmetic -/

/-- The custom errors of the contract, and the reverts raised by the checked
arithmetic and the libraries it uses. -/
inductive Revert
  | zeroAddress | duplicateProtocolChain
  | unknownRoute (route : ℕ) | routeDisabled (route : ℕ)
  | notADepositRoute (route : ℕ) | notAPayoutRoute (route : ℕ)
  | duplicateSigner | duplicateGuardian
  | unexpectedTokenDecimals (actual : ℕ)
  | invalidAmount | nonCanonicalAmount
  | depositsPaused | payoutsPaused
  | invalidDestinationLength
  | amountBelowMinimum | amountAboveMaximum | exceedsRollingLimit
  | inexactTransfer (expected received : ℕ)
  | authorizationExpired
  | invalidSignerEpoch (expected provided : ℕ)
  | invalidSignatureCount
  | duplicateSignerSignature (signer : Address)
  | unauthorizedSigner (signer : Address)
  | requestAlreadyExecuted
  | obligationNotFound | obligationNotPending
  | invalidRefundRecipient | invalidRefundAmount
  | invalidGovernanceNonce (expected provided : ℕ)
  | insufficientReserve
  | unauthorizedGuardian | nothingToPause
  | invalidLimits
  | migrationAlreadyCommitted | migrationNotCommitted | migrationRequiresPause
  | outstandingRefundsRemain (count principal : ℕ)
  | invalidSuccessor | alreadyMigrated | noPendingMigration | migrationAlreadyFinalized
  | treasuryNotConfigured | invalidTreasury
  | wrongTreasury (expected provided : Address)
  | withdrawalRequiresPause
  | arithmeticPanic
  | safeCastOverflow
  | invalidSignature
  | successorCallFailed
  | erc20InsufficientBalance | erc20InsufficientAllowance | erc20InvalidReceiver
  deriving DecidableEq, Repr

/-- Checked addition at `bits` bits. -/
def checkedAdd (bits a b : ℕ) : Except Revert ℕ :=
  if a + b < 2 ^ bits then .ok (a + b) else .error .arithmeticPanic

/-- Checked subtraction of unsigned values. -/
def checkedSub (a b : ℕ) : Except Revert ℕ :=
  if b ≤ a then .ok (a - b) else .error .arithmeticPanic

@[simp] theorem checkedAdd_eq_ok {bits a b c : ℕ} :
    checkedAdd bits a b = .ok c ↔ a + b < 2 ^ bits ∧ a + b = c := by
  by_cases h : a + b < 2 ^ bits <;> simp [checkedAdd, h]

@[simp] theorem checkedSub_eq_ok {a b c : ℕ} :
    checkedSub a b = .ok c ↔ b ≤ a ∧ a - b = c := by
  by_cases h : b ≤ a <;> simp [checkedSub, h]

/-! ## Contract types -/

inductive ObligationStatus
  | none | pending | settled | refunded | abandoned
  deriving DecidableEq, Repr

structure Obligation where
  depositor : Address
  status : ObligationStatus
  route : ℕ
  amount : ℕ
  deriving DecidableEq, Repr

/-- An unwritten mapping slot. -/
def Obligation.unset : Obligation := ⟨0, .none, 0, 0⟩

structure Window where
  windowStart : ℕ
  total : ℕ
  deriving DecidableEq, Repr

structure Limits where
  inboundMin : ℕ
  inboundMax : ℕ
  inboundRollingLimit : ℕ
  outboundMin : ℕ
  outboundMax : ℕ
  outboundRollingLimit : ℕ
  protectedMinReserve : ℕ
  deriving DecidableEq, Repr

structure PayoutRequest where
  route : ℕ
  requestId : Word
  recipient : Address
  amount : ℕ
  signerEpoch : ℕ
  expiry : ℕ
  deriving DecidableEq, Repr

structure TreasuryWithdrawRequest where
  requestId : Word
  treasury : Address
  amount : ℕ
  signerEpoch : ℕ
  expiry : ℕ
  deriving DecidableEq, Repr

structure RefundRequest where
  requestId : Word
  obligationIndex : ℕ
  recipient : Address
  amount : ℕ
  signerEpoch : ℕ
  expiry : ℕ
  deriving DecidableEq, Repr

structure SettlementRequest where
  requestId : Word
  obligationIndex : ℕ
  signerEpoch : ℕ
  expiry : ℕ
  deriving DecidableEq, Repr

structure AbandonmentRequest where
  requestId : Word
  obligationIndex : ℕ
  signerEpoch : ℕ
  expiry : ℕ
  deriving DecidableEq, Repr

/-- `address[3]`, the shape of the signer and the guardian set. -/
structure Triple where
  fst : Address
  snd : Address
  thd : Address
  deriving DecidableEq, Repr

def Triple.toList (t : Triple) : List Address := [t.fst, t.snd, t.thd]

/-- The values fixed at construction. `self` is `address(this)` and
`domainSeparator` the EIP-712 domain separator of this deployment. -/
structure Immutables where
  self : Address
  token : Address
  protocolChainGoldcoin : ℕ
  protocolChainRobinhood : ℕ
  protocolChainSolana : ℕ
  treasury : Address
  domainSeparator : Word
  deriving DecidableEq, Repr

structure Storage where
  signers : Triple
  isSigner : Address → Bool
  signerEpoch : ℕ
  guardians : Triple
  isGuardian : Address → Bool
  depositsPaused : Bool
  payoutsPaused : Bool
  routeEnabled : ℕ → Bool
  governanceNonce : ℕ
  limits : Limits
  inboundWindow : Window
  outboundWindow : Window
  obligations : ℕ → Obligation
  obligationCount : ℕ
  outstandingRefundableCount : ℕ
  outstandingRefundablePrincipal : ℕ
  executedRequest : Word → Bool
  migrationSuccessor : Address
  migrationCommittedAt : ℕ
  migrationCommitted : Bool
  migrated : Bool

/-! ## The reserve token -/

/-- A plain ERC-20: balances and allowances, no fee, no hook, no blocklist. -/
structure Erc20 where
  balanceOf : Address → ℕ
  allowance : Address → Address → ℕ

namespace Erc20

def transfer (t : Erc20) (src dst : Address) (amount : ℕ) : Except Revert Erc20 := do
  require (dst ≠ 0) .erc20InvalidReceiver
  require (amount ≤ t.balanceOf src) .erc20InsufficientBalance
  let debited := Function.update t.balanceOf src (t.balanceOf src - amount)
  return { t with balanceOf := Function.update debited dst (debited dst + amount) }

/-- An allowance of `2^256 - 1` is unlimited and is not spent. -/
def transferFrom (t : Erc20) (spender src dst : Address) (amount : ℕ) : Except Revert Erc20 := do
  let allowed := t.allowance src spender
  require (amount ≤ allowed) .erc20InsufficientAllowance
  let left := if allowed = 2 ^ 256 - 1 then allowed else allowed - amount
  let spent := Function.update t.allowance src (Function.update (t.allowance src) spender left)
  transfer { t with allowance := spent } src dst amount

end Erc20

/-- What one transaction can change: the contract's storage and the token. -/
structure World where
  bridge : Storage
  token : Erc20

/-- The call's environment: sender, block time, and what the proposed successor
answers. `none` is a call that reverts. -/
structure CallEnv where
  sender : Address
  timestamp : ℕ
  codeLength : Address → ℕ
  successorToken : Address → Option Address
  successorProtocolId : Address → Option Word

/-! ## Hashing and signatures -/

/-- What the contract hashes: the text of an EIP-712 type, the `abi.encode` of
static values (one word each), or an EIP-712 digest preimage. -/
inductive Preimage
  | text (s : String)
  | encode (words : List Word)
  | typedData (domainSeparator structHash : Word)
  deriving DecidableEq, Repr

/-- The primitives outside the contract: `keccak256` and `ECDSA.recover`, which
is `none` on a malformed or non-canonical signature. -/
structure Crypto (Sig : Type) where
  keccak256 : Preimage → Word
  recover : Word → Sig → Option Address

end Evm
