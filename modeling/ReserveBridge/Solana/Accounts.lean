-- SUMMARY: What the instructions of the Solana reserve program share: validation, token extension checks, account lookups, threshold approval, the payout record, and the token transfer.
import ReserveBridge.Solana.Limits
import ReserveBridge.Solana.Verification

/-!
# Shared parts of the instructions

`programs/glc-reserve-bridge/src/{validation,token_extensions,state}.rs`, and
the account constraints the instructions have in common. The framework loads
the accounts an instruction names, creates the `init` ones, checks the
constraints, and runs the body. An account whose address the constraints derive
is looked up at that address.
-/

namespace Solana
open Bytes Guard

/-! ## Validation -/

def minThreshold : UInt8 := 2

def validateAttestationKeySet (keys : List Pubkey) (threshold : UInt8) :
    Except BridgeError Unit := do
  require (keys ≠ []) .emptyAttestationKeySet
  require (keys.length ≤ maxAttestationKeys) .tooManyAttestationKeys
  require (1 ≤ threshold) .zeroThreshold
  require (threshold.toNat ≤ keys.length) .thresholdExceedsKeyCount
  require (minThreshold ≤ threshold) .thresholdBelowMinimum
  require (∀ key ∈ keys, key ≠ Pubkey.default) .invalidAttestationKey
  require keys.Nodup .duplicateAttestationKey

/-- A key set that passes validation. -/
structure ValidKeySet (keys : List Pubkey) (threshold : UInt8) : Prop where
  two_le : 2 ≤ threshold.toNat
  threshold_le : threshold.toNat ≤ keys.length
  length_le : keys.length ≤ 8
  nodup : keys.Nodup
  ne_default : ∀ key ∈ keys, key ≠ Pubkey.default

theorem validateAttestationKeySet_ok {keys : List Pubkey} {threshold : UInt8} {u : Unit}
    (h : validateAttestationKeySet keys threshold = .ok u) : ValidKeySet keys threshold := by
  simp only [validateAttestationKeySet, bind_eq_ok, require_eq_ok, exists_unit] at h
  obtain ⟨-, hlength, -, hthreshold, hmin, hdefault, hnodup⟩ := h
  exact ⟨UInt8.le_iff_toNat_le.mp hmin, hthreshold, hlength, hnodup, hdefault⟩

/-- One round of the loop of `validateRebalancePolicy`: the treasuries seen so
far, and the next one. -/
def checkTreasury (reserveTokenAccount : Pubkey) (seen : List Pubkey) (treasury : Pubkey) :
    Except BridgeError (List Pubkey) := do
  require (treasury ≠ Pubkey.default) .invalidTreasuryDestination
  require (treasury ≠ reserveTokenAccount) .treasuryDestinationIsReserveItself
  require (treasury ∉ seen) .duplicateTreasuryDestination
  return seen ++ [treasury]

def validateRebalancePolicy (treasuries : List Pubkey) (reserveTokenAccount : Pubkey) :
    Except BridgeError Unit := do
  require (treasuries ≠ []) .emptyTreasuryAllowlist
  require (treasuries.length ≤ maxTreasuryDestinations) .tooManyTreasuryDestinations
  let _ ← treasuries.foldlM (checkTreasury reserveTokenAccount) []
  return ()

/-- A treasury list that passes validation. -/
structure ValidTreasuries (treasuries : List Pubkey) (reserveTokenAccount : Pubkey) : Prop where
  pos : 1 ≤ treasuries.length
  length_le : treasuries.length ≤ 4
  nodup : treasuries.Nodup
  ne_default : ∀ treasury ∈ treasuries, treasury ≠ Pubkey.default
  ne_reserve : ∀ treasury ∈ treasuries, treasury ≠ reserveTokenAccount

/-- The loop keeps the list it has seen free of duplicates and of the two
forbidden addresses. -/
theorem foldlM_checkTreasury_ok {reserve : Pubkey} {treasuries seen seen' : List Pubkey}
    (h : treasuries.foldlM (checkTreasury reserve) seen = .ok seen') (hseen : seen.Nodup) :
    (seen ++ treasuries).Nodup ∧
      ∀ treasury ∈ treasuries, treasury ≠ Pubkey.default ∧ treasury ≠ reserve := by
  induction treasuries generalizing seen with
  | nil => simpa using hseen
  | cons t ts ih =>
    simp only [List.foldlM_cons, checkTreasury, bind_eq_ok, require_eq_ok, pure_eq_ok,
      exists_unit] at h
    obtain ⟨_, ⟨hdefault, hreserve, hnew, rfl⟩, htail⟩ := h
    obtain ⟨hnodup, hall⟩ := ih htail (by simpa [List.nodup_append] using ⟨hseen, by grind⟩)
    refine ⟨by simpa using hnodup, fun treasury hmem => ?_⟩
    rcases List.mem_cons.mp hmem with rfl | hmem
    · exact ⟨hdefault, hreserve⟩
    · exact hall treasury hmem

theorem validateRebalancePolicy_ok {treasuries : List Pubkey} {reserve : Pubkey} {u : Unit}
    (h : validateRebalancePolicy treasuries reserve = .ok u) :
    ValidTreasuries treasuries reserve := by
  simp only [validateRebalancePolicy, bind_eq_ok, require_eq_ok, exists_unit] at h
  obtain ⟨hne, hlength, _, hloop, -⟩ := h
  obtain ⟨hnodup, hall⟩ := foldlM_checkTreasury_ok hloop List.nodup_nil
  exact ⟨List.length_pos_iff.mpr hne, hlength, hnodup, fun t ht => (hall t ht).1,
    fun t ht => (hall t ht).2⟩

/-! ## Token extensions -/

def supportedMintExtensions : List ExtensionType := [.metadataPointer, .tokenMetadata]

def supportedTokenAccountExtensions : List ExtensionType := [.immutableOwner]

def validateExtensionTypes (extensionTypes allowlist : List ExtensionType) :
    Except BridgeError Unit :=
  require (∀ ext ∈ extensionTypes, ext ∈ allowlist) .unsupportedTokenExtension

def validateMintExtensions (mint : Mint) : Except BridgeError Unit := do
  let extensionTypes ← orFail mint.extensions .unreadableTokenState
  validateExtensionTypes extensionTypes supportedMintExtensions

def validateTokenAccountExtensions (account : TokenAccount) : Except BridgeError Unit := do
  let extensionTypes ← orFail account.extensions .unreadableTokenState
  validateExtensionTypes extensionTypes supportedTokenAccountExtensions

/-! ## Accounts -/

/-- The address of an `init` account must be free. -/
def vacant {α : Type} (account : Option α) : Except BridgeError Unit :=
  require (account.isNone = true) .accountAlreadyInUse

@[simp] theorem vacant_eq_ok {α : Type} {account : Option α} {u : Unit} :
    vacant account = .ok u ↔ account = none := by
  simp [vacant]

def requireAdmin (config : BridgeConfig) (env : Env) : Except BridgeError Unit :=
  require (config.admin = env.signer) .unauthorizedAdmin

def requireReserveConfigured (config : BridgeConfig) : Except BridgeError Unit :=
  require (config.reserveTokenMint ≠ Pubkey.default) .reserveNotConfigured

/-- An existing associated token account: the constraints
`associated_token::{mint, authority, token_program}`. -/
def associatedTokenAccount (rt : Runtime) (ledger : Ledger) (wallet mint tokenProgram : Pubkey) :
    Except BridgeError TokenAccount := do
  let account ← orFail (ledger.accounts (rt.associatedTokenAddress wallet mint tokenProgram))
    .accountNotInitialized
  require (account.tokenProgram = tokenProgram) .constraintTokenProgram
  require (account.owner = wallet) .constraintTokenOwner
  return account

/-- The address of the reserve token account of a configuration. -/
def reserveTokenAccount (rt : Runtime) (config : BridgeConfig) : Pubkey :=
  rt.associatedTokenAddress rt.reserveAuthority config.reserveTokenMint
    config.reserveTokenProgram

/-- The reserve mint and the reserve token account, as every instruction that
names them loads them. -/
def loadReserve (rt : Runtime) (s : Chain) (config : BridgeConfig) :
    Except BridgeError (Mint × TokenAccount) := do
  require (config.reserveTokenProgram ∈ rt.tokenPrograms) .invalidProgramId
  let mint ← orFail (s.ledger.mints config.reserveTokenMint) .accountNotInitialized
  let reserve ← associatedTokenAccount rt s.ledger rt.reserveAuthority config.reserveTokenMint
    config.reserveTokenProgram
  return (mint, reserve)

theorem associatedTokenAccount_ok {rt : Runtime} {ledger : Ledger} {wallet mint program : Pubkey}
    {account : TokenAccount}
    (h : associatedTokenAccount rt ledger wallet mint program = .ok account) :
    ledger.accounts (rt.associatedTokenAddress wallet mint program) = some account ∧
      account.owner = wallet := by
  simp only [associatedTokenAccount, bind_eq_ok, orFail_eq_ok, require_eq_ok, pure_eq_ok,
    exists_unit] at h
  obtain ⟨_, haccount, -, howner, rfl⟩ := h
  exact ⟨haccount, howner⟩

/-- An instruction that loads the reserve runs on a configured vault. -/
theorem loadReserve_ok {rt : Runtime} {s : Chain} {config : BridgeConfig} {mint : Mint}
    {reserve : TokenAccount} (h : loadReserve rt s config = .ok (mint, reserve)) :
    config.reserveTokenMint ≠ Pubkey.default ∧
      s.ledger.accounts (reserveTokenAccount rt config) = some reserve ∧
      reserve.owner = rt.reserveAuthority := by
  simp only [loadReserve, bind_eq_ok, orFail_eq_ok, require_eq_ok, pure_eq_ok, exists_unit,
    Prod.mk.injEq] at h
  obtain ⟨-, _, hmint, _, hreserve, rfl, rfl⟩ := h
  refine ⟨fun hdefault => ?_, associatedTokenAccount_ok hreserve⟩
  rw [hdefault, s.ledger.default_not_mint] at hmint
  simp at hmint

/-! ## Threshold approval -/

/-- The data of the instruction right before this one, which must be a call of
the ed25519 program. -/
def verificationInstruction (rt : Runtime) (env : Env) : Except BridgeError (List UInt8) := do
  let (programId, data) ← orFail env.previous .missingSignatureVerification
  require (programId = rt.ed25519Program) .missingSignatureVerification
  return data

def requireSigners (keySet : AttestationKeySet) (data expectedMessage : List UInt8) :
    Except BridgeError Unit := do
  let signerCount ← countUniqueAttestationSigners data expectedMessage keySet.keys
  require (keySet.threshold.toNat ≤ signerCount) .insufficientSignatures

/-- `require_threshold_approval`, and the same lines where the claim
instructions write them out. -/
def requireThresholdApproval (rt : Runtime) (env : Env) (keySet : AttestationKeySet)
    (expectedMessage : List UInt8) : Except BridgeError Unit := do
  let data ← verificationInstruction rt env
  requireSigners keySet data expectedMessage

/-- The instruction before this one is a call of the ed25519 program whose
entries name distinct attestation keys, at least a threshold of them, each with
the message. -/
def Approved (rt : Runtime) (env : Env) (keySet : AttestationKeySet) (message : List UInt8) :
    Prop :=
  ∃ data signers, env.previous = some (rt.ed25519Program, data) ∧
    (data.getD 0 0).toNat = signers.length ∧ keySet.threshold.toNat ≤ signers.length ∧
    Counted data message keySet.keys signers.length signers

theorem verificationInstruction_ok {rt : Runtime} {env : Env} {data : List UInt8}
    (h : verificationInstruction rt env = .ok data) :
    env.previous = some (rt.ed25519Program, data) := by
  simp only [verificationInstruction, bind_eq_ok, orFail_eq_ok, require_eq_ok, pure_eq_ok,
    exists_unit] at h
  obtain ⟨⟨program, data'⟩, hprevious, hprogram, hdata⟩ := h
  simp only at hprogram hdata
  rw [hprevious, hprogram, hdata]

theorem approved_of_requireSigners {rt : Runtime} {env : Env} {keySet : AttestationKeySet}
    {data message : List UInt8} {u : Unit} (hdata : verificationInstruction rt env = .ok data)
    (h : requireSigners keySet data message = .ok u) : Approved rt env keySet message := by
  simp only [requireSigners, bind_eq_ok, require_eq_ok] at h
  obtain ⟨n, hcount, hthreshold⟩ := h
  obtain ⟨hentries, signers, hcounted⟩ := countUniqueAttestationSigners_ok hcount
  obtain rfl := hcounted.length
  exact ⟨data, signers, verificationInstruction_ok hdata, hentries, hthreshold, hcounted⟩

theorem requireThresholdApproval_ok {rt : Runtime} {env : Env} {keySet : AttestationKeySet}
    {message : List UInt8} {u : Unit}
    (h : requireThresholdApproval rt env keySet message = .ok u) :
    Approved rt env keySet message := by
  simp only [requireThresholdApproval, bind_eq_ok] at h
  obtain ⟨data, hdata, hsigners⟩ := h
  exact approved_of_requireSigners hdata hsigners

/-! ## Records -/

/-- Copy `bytes` into a zeroed array. -/
def zeroPadded (n : ℕ) (bytes : List UInt8) : Vector UInt8 n :=
  Vector.ofFn fun i => bytes.getD i 0

/-- The array of a withdrawal record's reserved space: zero but for the class. -/
def withdrawalReserved (withdrawalClass : UInt8) : Vector UInt8 16 :=
  zeroPadded 16 [withdrawalClass]

def packTreasuries (treasuries : List Pubkey) : Vector Pubkey 4 :=
  Vector.ofFn fun i => treasuries.getD i Pubkey.default

/-- The entries a policy's count covers, `treasuries[..count]`. -/
def listedTreasuries (treasuryCount : UInt8) (treasuries : Vector Pubkey 4) : List Pubkey :=
  treasuries.toList.take (min treasuryCount.toNat maxTreasuryDestinations)

/-- Packing a list that fits and reading the counted entries returns it. -/
theorem listedTreasuries_packTreasuries {treasuries : List Pubkey} (h : treasuries.length ≤ 4) :
    listedTreasuries (UInt8.ofNat treasuries.length) (packTreasuries treasuries) = treasuries := by
  have hcount : (UInt8.ofNat treasuries.length).toNat = treasuries.length := by
    rw [UInt8.toNat_ofNat']
    omega
  rw [listedTreasuries, hcount, min_eq_left (by exact h)]
  refine List.ext_getElem (by simp [h]) fun i hi hi' => ?_
  simp [packTreasuries, hi']

/-- Beyond the list, the packed array is default-filled. -/
theorem packTreasuries_tail {treasuries : List Pubkey} {i : ℕ} (hi : i < 4)
    (h : treasuries.length ≤ i) : (packTreasuries treasuries)[i] = Pubkey.default := by
  simp [packTreasuries, h]

def RebalancePolicy.isAllowlisted (policy : RebalancePolicy) (destination : Pubkey) : Bool :=
  (listedTreasuries policy.treasuryCount policy.treasuries).contains destination

namespace WithdrawalObligation

def payoutTxidOffset : ℕ := 0
def payoutHeightOffset : ℕ := 32
def payoutRecordLen : ℕ := 40

/-- The recorded Goldcoin payout, or `none` while not completed. -/
def payoutRecord (o : WithdrawalObligation) : Option (Bytes32 × UInt64) :=
  if o.status ≠ .completed then none
  else some (Vector.ofFn fun i => o.reserved.toList.getD (payoutTxidOffset + i) 0,
    UInt64.ofNat (leValue ((o.reserved.toList.drop payoutHeightOffset).take 8)))

def payoutRecordIsUnset (o : WithdrawalObligation) : Bool :=
  (o.reserved.toList.take payoutRecordLen).all (· == 0)

def setPayoutRecord (o : WithdrawalObligation) (payoutTxid : Bytes32) (payoutHeight : UInt64) :
    WithdrawalObligation :=
  { o with
    reserved := zeroPadded 48 (write (write o.reserved.toList payoutTxidOffset payoutTxid.toList)
      payoutHeightOffset (u64Bytes payoutHeight)) }

/-- The obligation after its payout was recorded. -/
def complete (o : WithdrawalObligation) (payoutTxid : Bytes32) (payoutHeight : UInt64) :
    WithdrawalObligation :=
  { o.setPayoutRecord payoutTxid payoutHeight with status := .completed }

/-- The obligation after it was paid back. -/
def refund (o : WithdrawalObligation) : WithdrawalObligation := { o with status := .refunded }

/-- What an obligation keeps for good. -/
def terms (o : WithdrawalObligation) : UInt64 × UInt64 × Pubkey × Vector UInt8 64 × UInt8 :=
  (o.index, o.amount, o.requester, o.glcAddress, o.glcAddressLen)

@[simp] theorem terms_complete (o : WithdrawalObligation) (payoutTxid : Bytes32)
    (payoutHeight : UInt64) : (o.complete payoutTxid payoutHeight).terms = o.terms := by
  simp only [terms, complete, setPayoutRecord]

@[simp] theorem terms_refund (o : WithdrawalObligation) : o.refund.terms = o.terms := rfl

@[simp] theorem status_complete (o : WithdrawalObligation) (payoutTxid : Bytes32)
    (payoutHeight : UInt64) : (o.complete payoutTxid payoutHeight).status = .completed := rfl

@[simp] theorem status_refund (o : WithdrawalObligation) : o.refund.status = .refunded := rfl

theorem index_eq_of_terms {o o' : WithdrawalObligation} (h : o.terms = o'.terms) :
    o.index = o'.index := congrArg (fun t => t.1) h

theorem amount_eq_of_terms {o o' : WithdrawalObligation} (h : o.terms = o'.terms) :
    o.amount = o'.amount := congrArg (fun t => t.2.1) h

theorem requester_eq_of_terms {o o' : WithdrawalObligation} (h : o.terms = o'.terms) :
    o.requester = o'.requester := congrArg (fun t => t.2.2.1) h

theorem requester_ne_of_terms {o o' : WithdrawalObligation} {key : Pubkey}
    (h : o'.terms = o.terms) (ho : o.requester ≠ key) : o'.requester ≠ key :=
  requester_eq_of_terms h ▸ ho

theorem toList_reserved_setPayoutRecord (o : WithdrawalObligation) (txid : Bytes32)
    (height : UInt64) :
    (o.setPayoutRecord txid height).reserved.toList =
      write (write o.reserved.toList payoutTxidOffset txid.toList) payoutHeightOffset
        (u64Bytes height) := by
  have hlength : (write (write o.reserved.toList payoutTxidOffset txid.toList)
      payoutHeightOffset (u64Bytes height)).length = 48 := by
    simp [payoutTxidOffset, payoutHeightOffset]
  refine List.ext_getElem (by simp [hlength]) fun i hi hi' => ?_
  simp [setPayoutRecord, zeroPadded, hi']

/-- A completed obligation returns the payout it was completed with. -/
theorem payoutRecord_complete (o : WithdrawalObligation) (txid : Bytes32) (height : UInt64) :
    (o.complete txid height).payoutRecord = some (txid, height) := by
  have htxid : txid.toList.length = 32 := by simp
  have hoffset : payoutHeightOffset = payoutTxidOffset + txid.toList.length := by
    rw [htxid]
    rfl
  have hwrites := toList_reserved_setPayoutRecord o txid height
  rw [hoffset, write_append (by simp [payoutTxidOffset]), payoutTxidOffset] at hwrites
  have hat : At (write o.reserved.toList 0 (txid.toList ++ u64Bytes height)) 0
      (txid.toList ++ u64Bytes height) := at_write (by simp)
  rw [← hwrites] at hat
  have hbytes := (at_iff_getElem?.mp hat.left).2
  have hheight := hat.right.2
  rw [length_u64Bytes, htxid, Nat.zero_add] at hheight
  rw [payoutRecord, if_neg (by simp)]
  simp only [complete]
  refine congrArg some (Prod.ext (Vector.ext fun i hi => ?_) ?_)
  · have hbyte := hbytes i (by simpa using hi)
    rw [Nat.zero_add, Vector.getElem?_toList, Vector.getElem?_toList] at hbyte
    simp [payoutTxidOffset, List.getD_eq_getElem?_getD, hbyte, hi]
  · rw [payoutHeightOffset]
    simp [hheight, leValue_u64Bytes]

end WithdrawalObligation

/-! ## Token transfer -/

namespace Ledger

def setAmount (ledger : Ledger) (address : Pubkey) (amount : UInt64) : Ledger :=
  { ledger with
    accounts := Function.update ledger.accounts address
      ((ledger.accounts address).map fun account => { account with amount := amount }) }

/-- `transfer_checked` of the token program. A transfer from an account to
itself passes the same checks and moves nothing. -/
def transferChecked (ledger : Ledger) (tokenProgram src mint dst authority : Pubkey)
    (amount : UInt64) (decimals : UInt8) : Except BridgeError Ledger := do
  let source ← orFail (ledger.accounts src) .accountNotInitialized
  let destination ← orFail (ledger.accounts dst) .accountNotInitialized
  let mintAccount ← orFail (ledger.mints mint) .accountNotInitialized
  require (source.tokenProgram = tokenProgram) .incorrectProgramId
  require (destination.tokenProgram = tokenProgram) .incorrectProgramId
  require (source.frozen = false ∧ destination.frozen = false) .accountFrozen
  require (amount ≤ source.amount) .insufficientFunds
  require (source.mint = destination.mint) .mintMismatch
  require (source.mint = mint) .mintMismatch
  require (mintAccount.decimals = decimals) .mintDecimalsMismatch
  require (source.owner = authority) .ownerMismatch
  if src = dst then
    return ledger
  else
    let debited ← orFail (checkedSubU64 source.amount amount) .arithmeticOverflow
    let credited ← orFail (checkedAddU64 destination.amount amount) .arithmeticOverflow
    return (ledger.setAmount src debited).setAmount dst credited

/-- The balance of an account that may not exist. -/
def balance (ledger : Ledger) (address : Pubkey) : ℕ :=
  match ledger.accounts address with
  | some account => account.amount.toNat
  | none => 0

/-- The owner of an account, if it exists. -/
def owner (ledger : Ledger) (address : Pubkey) : Option Pubkey :=
  (ledger.accounts address).map TokenAccount.owner

@[simp] theorem owner_setAmount (ledger : Ledger) (address a : Pubkey) (amount : UInt64) :
    (ledger.setAmount address amount).owner a = ledger.owner a := by
  by_cases ha : a = address
  · subst ha
    simp [owner, setAmount, Function.comp_def]
  · simp [owner, setAmount, ha]

theorem balance_setAmount {ledger : Ledger} {address : Pubkey} {account : TokenAccount}
    (h : ledger.accounts address = some account) (amount : UInt64) (a : Pubkey) :
    (ledger.setAmount address amount).balance a =
      if a = address then amount.toNat else ledger.balance a := by
  by_cases ha : a = address
  · subst ha
    simp [balance, setAmount, h]
  · simp [balance, setAmount, ha]

theorem balance_of_accounts {ledger : Ledger} {address : Pubkey} {account : TokenAccount}
    (h : ledger.accounts address = some account) :
    ledger.balance address = account.amount.toNat := by
  simp [balance, h]

theorem owner_of_accounts {ledger : Ledger} {address : Pubkey} {account : TokenAccount}
    (h : ledger.accounts address = some account) : ledger.owner address = some account.owner := by
  simp [owner, h]

/-- The amount moved from `src` to `dst`, and no account changed its owner. -/
structure Moved (ledger ledger' : Ledger) (src dst : Pubkey) (amount : UInt64) : Prop where
  funded : amount.toNat ≤ ledger.balance src
  owner : ∀ a, ledger'.owner a = ledger.owner a
  balance : ∀ a, ledger'.balance a + (if a = src then amount.toNat else 0) =
    ledger.balance a + (if a = dst then amount.toNat else 0)

theorem transferChecked_ok {ledger ledger' : Ledger}
    {tokenProgram src mint dst authority : Pubkey} {amount : UInt64} {decimals : UInt8}
    (h : ledger.transferChecked tokenProgram src mint dst authority amount decimals =
      .ok ledger') : Moved ledger ledger' src dst amount := by
  simp only [transferChecked, bind_eq_ok, orFail_eq_ok, require_eq_ok, exists_unit] at h
  obtain ⟨source, hsource, destination, hdestination, _, -, -, -, -, hfunds, -, -, -, -, h⟩ := h
  have hle : amount.toNat ≤ ledger.balance src := by
    rw [balance_of_accounts hsource]
    exact UInt64.le_iff_toNat_le.mp hfunds
  split_ifs at h with hself
  · obtain rfl := pure_eq_ok.mp h
    exact ⟨hle, fun a => rfl, fun a => by rw [hself]⟩
  · simp only [bind_eq_ok, orFail_eq_ok, pure_eq_ok] at h
    obtain ⟨debited, hdebit, credited, hcredit, rfl⟩ := h
    have hdebited := checkedSubU64_eq_some hdebit
    have hcredited := checkedAddU64_eq_some hcredit
    have hdst : (ledger.setAmount src debited).accounts dst = some destination := by
      simp [setAmount, Ne.symm hself, hdestination]
    refine ⟨hle, fun a => by simp, fun a => ?_⟩
    rw [balance_setAmount hdst, balance_setAmount hsource]
    by_cases hd : a = dst
    · subst hd
      simp [Ne.symm hself, balance_of_accounts hdestination, hcredited]
    · by_cases hs : a = src
      · subst hs
        simp [hd, balance_of_accounts hsource, hdebited]
      · simp [hd, hs]

end Ledger

end Solana
