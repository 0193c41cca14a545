-- SUMMARY: What an accepted instruction of the Solana reserve program can do: one constructor per kind of instruction with its guards and its effect, and the inversion of the transition function into it.
import ReserveBridge.Solana.Program

/-!
# Accepted instructions

`Effect rt s env ix s'` lists what is known when the instruction `ix` was
accepted in `s` and led to `s'`. The invariants of the program are proved by
cases on it and never unfold an instruction.
-/

namespace Solana
open Bytes Guard Shared

/-! ## Effects -/

/-- The instructions that touch neither records nor tokens nor governance: the
administrator's settings, the window resets and the upgrade timelock. -/
def Instruction.maintenance : Instruction → Bool
  | .setPaused .. | .setLimit .. | .transferAdmin .. | .acceptAdmin
  | .resetRollingVolumeWindow .. | .acceptUpgradeAuthority | .proposeUpgrade ..
  | .executeUpgrade .. | .cancelUpgrade => true
  | _ => false

/-- What maintenance leaves alone in the configuration. -/
structure BridgeConfig.Retuned (config config' : BridgeConfig) : Prop where
  protocolVersion : config'.protocolVersion = config.protocolVersion
  reserveTokenMint : config'.reserveTokenMint = config.reserveTokenMint
  reserveTokenProgram : config'.reserveTokenProgram = config.reserveTokenProgram
  obligationCount : config'.obligationCount = config.obligationCount
  governanceTimelockSeconds :
    config'.governanceTimelockSeconds = config.governanceTimelockSeconds

theorem BridgeConfig.Retuned.refl (config : BridgeConfig) : config.Retuned config :=
  ⟨rfl, rfl, rfl, rfl, rfl⟩

/-- The vault is configured and its token account belongs to the reserve
authority. -/
structure VaultOpen (rt : Runtime) (s : Chain) (config : BridgeConfig) : Prop where
  configured : config.reserveTokenMint ≠ Pubkey.default
  owner : s.ledger.owner (reserveTokenAccount rt config) = some rt.reserveAuthority

/-- What is known of an accepted instruction. -/
inductive Effect (rt : Runtime) (s : Chain) (env : Env) : Instruction → Chain → Prop
  | initializeBridge {args : InitializeArgs} {config : BridgeConfig} {keySet : AttestationKeySet}
      {releaseWindow depositWindow : RollingVolumeWindow}
      (fresh : s.config = none ∧ s.keySet = none)
      (valid : ValidKeySet keySet.keys keySet.threshold) (epoch : keySet.epoch = 0)
      (unconfigured : config.reserveTokenMint = Pubkey.default)
      (empty : config.obligationCount = 0) (version : config.protocolVersion = protocolVersion) :
      Effect rt s env (.initializeBridge args)
        { s with
          config := some config, keySet := some keySet
          releaseWindow := some releaseWindow, depositWindow := some depositWindow }
  | initializeReserveVault {reserveMint tokenProgram : Pubkey} {config : BridgeConfig}
      {account : TokenAccount} {bump : UInt8}
      (config_eq : s.config = some config)
      (unconfigured : config.reserveTokenMint = Pubkey.default)
      (configured : reserveMint ≠ Pubkey.default)
      (absent : s.ledger.accounts
        (rt.associatedTokenAddress rt.reserveAuthority reserveMint tokenProgram) = none)
      (owner : account.owner = rt.reserveAuthority) (amount : account.amount = 0) :
      Effect rt s env (.initializeReserveVault reserveMint tokenProgram)
        { s with
          config := some { config with
            reserveTokenMint := reserveMint, reserveTokenProgram := tokenProgram
            reserveAuthorityBump := bump }
          ledger := { s.ledger with
            accounts := Function.update s.ledger.accounts
              (rt.associatedTokenAddress rt.reserveAuthority reserveMint tokenProgram)
              (some account) } }
  | maintain {ix : Instruction} {config config' : BridgeConfig}
      {releaseWindow depositWindow : Option RollingVolumeWindow}
      {pendingUpgrade : Option PendingProgramUpgrade} {upgradeAuthority : Option Pubkey}
      (kind : ix.maintenance = true) (config_eq : s.config = some config)
      (retuned : config.Retuned config') :
      Effect rt s env ix
        { s with
          config := some config'
          releaseWindow := releaseWindow, depositWindow := depositWindow
          pendingUpgrade := pendingUpgrade, upgradeAuthority := upgradeAuthority }
  | proposeAttestationKeyRotation {keys : List Pubkey} {threshold : UInt8}
      {config : BridgeConfig} {keySet : AttestationKeySet} {pending : PendingGovernanceAction}
      (config_eq : s.config = some config) (keySet_eq : s.keySet = some keySet)
      (idle : s.pendingAction = none) (valid : ValidKeySet keys threshold)
      (signed : Approved rt env keySet
        (proposeRotationMessage rt config keySet keys threshold))
      (epoch : pending.proposedUnderEpoch = keySet.epoch)
      (eta : pending.eta.toInt =
        env.unixTimestamp.toInt + config.governanceTimelockSeconds.toInt)
      (pending_threshold : pending.threshold = threshold) (pending_keys : pending.keys = keys) :
      Effect rt s env (.proposeAttestationKeyRotation keys threshold)
        { s with pendingAction := some pending }
  | executeAttestationKeyRotation {config : BridgeConfig} {keySet : AttestationKeySet}
      {pending : PendingGovernanceAction} {epoch : UInt64}
      (config_eq : s.config = some config) (keySet_eq : s.keySet = some keySet)
      (pending_eq : s.pendingAction = some pending)
      (elapsed : pending.eta.toInt ≤ env.unixTimestamp.toInt)
      (current : keySet.epoch = pending.proposedUnderEpoch)
      (valid : ValidKeySet pending.keys pending.threshold)
      (bumped : epoch.toNat = keySet.epoch.toNat + 1) :
      Effect rt s env .executeAttestationKeyRotation
        { s with
          keySet := some { keySet with
            epoch := epoch, threshold := pending.threshold, keys := pending.keys }
          pendingAction := none }
  | cancelAttestationKeyRotation {config : BridgeConfig} {keySet : AttestationKeySet}
      {pending : PendingGovernanceAction}
      (config_eq : s.config = some config) (keySet_eq : s.keySet = some keySet)
      (pending_eq : s.pendingAction = some pending)
      (signed : Approved rt env keySet
        (governanceMessage config.protocolVersion rt.programId keySet.epoch actionCancelRotation
          (rt.sha256 (cancelParams pending.action pending.eta)))) :
      Effect rt s env .cancelAttestationKeyRotation { s with pendingAction := none }
  | releaseFromReserve {txid : Bytes32} {vout : UInt32} {amount attestationEpoch : UInt64}
      {recipient : Pubkey} {config : BridgeConfig} {keySet : AttestationKeySet}
      {window : RollingVolumeWindow} {claim : DepositClaim}
      {claims : Store (Bytes32 × UInt32) DepositClaim} {ledger : Ledger}
      (config_eq : s.config = some config) (keySet_eq : s.keySet = some keySet)
      (vault : VaultOpen rt s config) (epoch : attestationEpoch = keySet.epoch)
      (floor : amount.toNat + config.protectedMinimum.toNat ≤
        s.ledger.balance (reserveTokenAccount rt config))
      (signed : Approved rt env keySet
        (releaseClaimMessage config.protocolVersion rt.programId keySet.epoch txid vout amount
          recipient config.reserveTokenMint))
      (moved : s.ledger.Moved ledger (reserveTokenAccount rt config)
        (rt.associatedTokenAddress recipient config.reserveTokenMint config.reserveTokenProgram)
        amount)
      (claimed : s.claims.init (txid, vout) claim = some claims)
      (claim_amount : claim.amount = amount) (claim_recipient : claim.recipient = recipient) :
      Effect rt s env (.releaseFromReserve txid vout amount attestationEpoch recipient)
        { s with releaseWindow := some window, claims := claims, ledger := ledger }
  | depositToReserve {amount : UInt64} {glcAddress : List UInt8} {config : BridgeConfig}
      {nextCount : UInt64} {window : RollingVolumeWindow} {obligation : WithdrawalObligation}
      {obligations : Store UInt64 WithdrawalObligation} {ledger : Ledger}
      (config_eq : s.config = some config) (vault : VaultOpen rt s config)
      (user_owner : s.ledger.owner (rt.associatedTokenAddress env.signer
        config.reserveTokenMint config.reserveTokenProgram) = some env.signer)
      (next : nextCount.toNat = config.obligationCount.toNat + 1)
      (moved : s.ledger.Moved ledger
        (rt.associatedTokenAddress env.signer config.reserveTokenMint config.reserveTokenProgram)
        (reserveTokenAccount rt config) amount)
      (booked : s.obligations.init config.obligationCount obligation = some obligations)
      (index : obligation.index = config.obligationCount)
      (obligation_amount : obligation.amount = amount)
      (requester : obligation.requester = env.signer) (pending : obligation.status = .pending) :
      Effect rt s env (.depositToReserve amount glcAddress)
        { s with
          config := some { config with obligationCount := nextCount }
          depositWindow := some window, obligations := obligations, ledger := ledger }
  | recordGoldcoinCompletion {index : UInt64} {payoutTxid : Bytes32}
      {payoutHeight amount attestationEpoch : UInt64} {config : BridgeConfig}
      {keySet : AttestationKeySet} {obligation : WithdrawalObligation}
      (config_eq : s.config = some config) (keySet_eq : s.keySet = some keySet)
      (found : s.obligations.get? index = some obligation)
      (epoch : attestationEpoch = keySet.epoch) (pending : obligation.status = .pending)
      (txid_ne : payoutTxid ≠ Vector.replicate 32 0) (height_pos : 0 < payoutHeight)
      (signed : Approved rt env keySet
        (goldcoinCompletionMessage config.protocolVersion rt.programId keySet.epoch index
          payoutTxid payoutHeight amount (destCommitment rt obligation))) :
      Effect rt s env
        (.recordGoldcoinCompletion index payoutTxid payoutHeight amount attestationEpoch)
        { s with
          obligations := s.obligations.modify index fun o => o.complete payoutTxid payoutHeight }
  | treasuryWithdraw {nonce amount attestationEpoch : UInt64} {destination : Pubkey}
      {config : BridgeConfig} {keySet : AttestationKeySet} {policy : RebalancePolicy}
      {withdrawal : RebalanceWithdrawal} {withdrawals : Store UInt64 RebalanceWithdrawal}
      {ledger : Ledger}
      (config_eq : s.config = some config) (keySet_eq : s.keySet = some keySet)
      (policy_eq : s.policy = some policy) (vault : VaultOpen rt s config)
      (epoch : attestationEpoch = keySet.epoch) (domain : nonce &&& nonceDomainRefund = 0)
      (away : destination ≠ reserveTokenAccount rt config)
      (floor : amount.toNat + config.protectedMinimum.toNat ≤
        s.ledger.balance (reserveTokenAccount rt config))
      (signed : Approved rt env keySet
        (treasuryWithdrawClaimMessage config.protocolVersion rt.programId keySet.epoch nonce
          amount destination config.reserveTokenMint (reserveTokenAccount rt config)
          policy.version))
      (moved : s.ledger.Moved ledger (reserveTokenAccount rt config) destination amount)
      (recorded : s.withdrawals.init nonce withdrawal = some withdrawals)
      (withdrawal_amount : withdrawal.amount = amount) :
      Effect rt s env (.treasuryWithdraw nonce amount attestationEpoch destination)
        { s with withdrawals := withdrawals, ledger := ledger }
  | refundWithdraw {nonce amount attestationEpoch obligationIndex : UInt64}
      {config : BridgeConfig} {keySet : AttestationKeySet} {obligation : WithdrawalObligation}
      {withdrawal : RebalanceWithdrawal} {withdrawals : Store UInt64 RebalanceWithdrawal}
      {ledger : Ledger}
      (config_eq : s.config = some config) (keySet_eq : s.keySet = some keySet)
      (vault : VaultOpen rt s config)
      (found : s.obligations.get? obligationIndex = some obligation)
      (epoch : attestationEpoch = keySet.epoch) (domain : nonce &&& nonceDomainRefund ≠ 0)
      (pending : obligation.status = .pending) (exact : amount = obligation.amount)
      (requester_owner : s.ledger.owner (rt.associatedTokenAddress obligation.requester
        config.reserveTokenMint config.reserveTokenProgram) = some obligation.requester)
      (floor : amount.toNat + config.protectedMinimum.toNat ≤
        s.ledger.balance (reserveTokenAccount rt config))
      (signed : Approved rt env keySet
        (refundWithdrawClaimMessage config.protocolVersion rt.programId keySet.epoch nonce amount
          (rt.associatedTokenAddress obligation.requester config.reserveTokenMint
            config.reserveTokenProgram)
          config.reserveTokenMint (reserveTokenAccount rt config) obligationIndex
          obligation.requester))
      (moved : s.ledger.Moved ledger (reserveTokenAccount rt config)
        (rt.associatedTokenAddress obligation.requester config.reserveTokenMint
          config.reserveTokenProgram) amount)
      (recorded : s.withdrawals.init nonce withdrawal = some withdrawals)
      (withdrawal_amount : withdrawal.amount = amount) :
      Effect rt s env (.refundWithdraw nonce amount attestationEpoch obligationIndex)
        { s with
          withdrawals := withdrawals
          obligations := s.obligations.modify obligationIndex fun o => o.refund
          ledger := ledger }
  | initializeRebalancePolicy {treasuries : List Pubkey} {config : BridgeConfig}
      {keySet : AttestationKeySet} {policy : RebalancePolicy}
      (config_eq : s.config = some config) (keySet_eq : s.keySet = some keySet)
      (absent : s.policy = none) (vault : VaultOpen rt s config)
      (valid : ValidTreasuries treasuries (reserveTokenAccount rt config))
      (signed : Approved rt env keySet
        (policyMessage rt config keySet actionInitializeRebalancePolicy treasuries))
      (count : policy.treasuryCount = UInt8.ofNat treasuries.length)
      (packed : policy.treasuries = packTreasuries treasuries) (version : policy.version = 0) :
      Effect rt s env (.initializeRebalancePolicy treasuries) { s with policy := some policy }
  | proposeRebalancePolicy {treasuries : List Pubkey} {config : BridgeConfig}
      {keySet : AttestationKeySet} {policy : RebalancePolicy} {pending : PendingRebalancePolicy}
      (config_eq : s.config = some config) (keySet_eq : s.keySet = some keySet)
      (policy_eq : s.policy = some policy) (idle : s.pendingPolicy = none)
      (valid : ValidTreasuries treasuries (reserveTokenAccount rt config))
      (signed : Approved rt env keySet
        (policyMessage rt config keySet actionProposeRebalancePolicy treasuries))
      (epoch : pending.proposedUnderEpoch = keySet.epoch)
      (eta : pending.eta.toInt =
        env.unixTimestamp.toInt + config.governanceTimelockSeconds.toInt)
      (count : pending.treasuryCount = UInt8.ofNat treasuries.length)
      (packed : pending.treasuries = packTreasuries treasuries) :
      Effect rt s env (.proposeRebalancePolicy treasuries)
        { s with pendingPolicy := some pending }
  | executeRebalancePolicy {config : BridgeConfig} {keySet : AttestationKeySet}
      {policy : RebalancePolicy} {pending : PendingRebalancePolicy} {treasuries : List Pubkey}
      {version : UInt64}
      (config_eq : s.config = some config) (keySet_eq : s.keySet = some keySet)
      (policy_eq : s.policy = some policy) (pending_eq : s.pendingPolicy = some pending)
      (elapsed : pending.eta.toInt ≤ env.unixTimestamp.toInt)
      (current : keySet.epoch = pending.proposedUnderEpoch)
      (listed : treasuries = listedTreasuries pending.treasuryCount pending.treasuries)
      (valid : ValidTreasuries treasuries (reserveTokenAccount rt config))
      (bumped : version.toNat = policy.version.toNat + 1) :
      Effect rt s env .executeRebalancePolicy
        { s with
          policy := some { policy with
            version := version, treasuryCount := UInt8.ofNat treasuries.length
            treasuries := packTreasuries treasuries }
          pendingPolicy := none }
  | cancelRebalancePolicy {config : BridgeConfig} {keySet : AttestationKeySet}
      {pending : PendingRebalancePolicy}
      (config_eq : s.config = some config) (keySet_eq : s.keySet = some keySet)
      (pending_eq : s.pendingPolicy = some pending)
      (signed : Approved rt env keySet
        (governanceMessage config.protocolVersion rt.programId keySet.epoch
          actionCancelRebalancePolicy
          (rt.sha256 (cancelParams actionProposeRebalancePolicy pending.eta)))) :
      Effect rt s env .cancelRebalancePolicy { s with pendingPolicy := none }

/-! ## Inversion of the instructions -/

variable {rt : Runtime} {s s' : Chain} {env : Env}

theorem initializeBridge_ok {args : InitializeArgs}
    (h : initializeBridge rt s env args = .ok s') :
    Effect rt s env (.initializeBridge args) s' := by
  simp only [initializeBridge, bind_eq_ok, vacant_eq_ok, require_eq_ok, pure_eq_ok,
    exists_unit] at h
  obtain ⟨hconfig, hkeys, -, -, -, hvalid, -, -, -, -, -, rfl⟩ := h
  exact .initializeBridge ⟨hconfig, hkeys⟩ (validateAttestationKeySet_ok hvalid) rfl rfl rfl rfl

theorem initializeReserveVault_ok {reserveMint tokenProgram : Pubkey}
    (h : initializeReserveVault rt s env reserveMint tokenProgram = .ok s') :
    Effect rt s env (.initializeReserveVault reserveMint tokenProgram) s' := by
  simp only [initializeReserveVault, bind_eq_ok, orFail_eq_ok, vacant_eq_ok, require_eq_ok,
    pure_eq_ok, exists_unit] at h
  obtain ⟨config, hconfig, mint, hmint, -, habsent, -, -, hunconfigured, -, rfl⟩ := h
  have hne : reserveMint ≠ Pubkey.default := by
    rintro rfl
    simp [s.ledger.default_not_mint] at hmint
  exact .initializeReserveVault hconfig hunconfigured hne habsent rfl rfl

theorem setPaused_ok {scope : PauseScope} {paused : Bool}
    (h : setPaused s env scope paused = .ok s') :
    Effect rt s env (.setPaused scope paused) s' := by
  simp only [setPaused, bind_eq_ok, orFail_eq_ok, exists_unit] at h
  obtain ⟨config, hconfig, -, h⟩ := h
  cases scope <;>
  · simp only [bind_eq_ok, require_eq_ok, pure_eq_ok, exists_unit] at h
    obtain ⟨-, rfl⟩ := h
    exact .maintain rfl hconfig ⟨rfl, rfl, rfl, rfl, rfl⟩

theorem setLimit_ok {field : LimitField} {newValue : UInt64}
    (h : setLimit s env field newValue = .ok s') :
    Effect rt s env (.setLimit field newValue) s' := by
  simp only [setLimit, bind_eq_ok, orFail_eq_ok, exists_unit] at h
  obtain ⟨config, hconfig, -, h⟩ := h
  cases field with
  | minTransferAmount | protectedMinimum =>
    obtain rfl := pure_eq_ok.mp h
    exact .maintain rfl hconfig ⟨rfl, rfl, rfl, rfl, rfl⟩
  | perTransferLimit | rollingVolumeLimit =>
    simp only [bind_eq_ok, require_eq_ok, pure_eq_ok, exists_unit] at h
    obtain ⟨-, rfl⟩ := h
    exact .maintain rfl hconfig ⟨rfl, rfl, rfl, rfl, rfl⟩

theorem transferAdmin_ok {newAdmin : Pubkey} (h : transferAdmin s env newAdmin = .ok s') :
    Effect rt s env (.transferAdmin newAdmin) s' := by
  simp only [transferAdmin, bind_eq_ok, orFail_eq_ok, require_eq_ok, pure_eq_ok,
    exists_unit] at h
  obtain ⟨config, hconfig, -, -, rfl⟩ := h
  exact .maintain rfl hconfig ⟨rfl, rfl, rfl, rfl, rfl⟩

theorem acceptAdmin_ok (h : acceptAdmin s env = .ok s') : Effect rt s env .acceptAdmin s' := by
  simp only [acceptAdmin, bind_eq_ok, orFail_eq_ok, require_eq_ok, pure_eq_ok, exists_unit] at h
  obtain ⟨config, hconfig, pending, -, -, rfl⟩ := h
  exact .maintain rfl hconfig ⟨rfl, rfl, rfl, rfl, rfl⟩

/-- An effect of maintenance that leaves the configuration alone. -/
theorem Effect.maintain_of_config {ix : Instruction} {config : BridgeConfig}
    {releaseWindow depositWindow : Option RollingVolumeWindow}
    {pendingUpgrade : Option PendingProgramUpgrade} {upgradeAuthority : Option Pubkey}
    (hkind : ix.maintenance = true) (hconfig : s.config = some config) :
    Effect rt s env ix { s with
      releaseWindow := releaseWindow, depositWindow := depositWindow
      pendingUpgrade := pendingUpgrade, upgradeAuthority := upgradeAuthority } := by
  have heffect : Effect rt s env ix { s with
      config := some config, releaseWindow := releaseWindow, depositWindow := depositWindow
      pendingUpgrade := pendingUpgrade, upgradeAuthority := upgradeAuthority } :=
    .maintain hkind hconfig (.refl config)
  rwa [← hconfig] at heffect

theorem resetRollingVolumeWindow_ok {direction : Direction}
    (h : resetRollingVolumeWindow s env direction = .ok s') :
    Effect rt s env (.resetRollingVolumeWindow direction) s' := by
  simp only [resetRollingVolumeWindow, bind_eq_ok, orFail_eq_ok] at h
  obtain ⟨config, hconfig, h⟩ := h
  cases direction <;>
  · simp only [bind_eq_ok, orFail_eq_ok, require_eq_ok, pure_eq_ok, exists_unit] at h
    obtain ⟨window, -, -, -, rfl⟩ := h
    exact Effect.maintain_of_config rfl hconfig

theorem acceptUpgradeAuthority_ok (h : acceptUpgradeAuthority rt s env = .ok s') :
    Effect rt s env .acceptUpgradeAuthority s' := by
  simp only [acceptUpgradeAuthority, bind_eq_ok, orFail_eq_ok, require_eq_ok, pure_eq_ok,
    exists_unit] at h
  obtain ⟨config, hconfig, -, rfl⟩ := h
  exact Effect.maintain_of_config rfl hconfig

theorem proposeUpgrade_ok {bufferAddress : Pubkey}
    (h : proposeUpgrade rt s env bufferAddress = .ok s') :
    Effect rt s env (.proposeUpgrade bufferAddress) s' := by
  simp only [proposeUpgrade, bind_eq_ok, orFail_eq_ok, vacant_eq_ok, require_eq_ok, pure_eq_ok,
    exists_unit] at h
  obtain ⟨config, hconfig, -, -, -, eta, -, rfl⟩ := h
  exact Effect.maintain_of_config rfl hconfig

theorem cancelUpgrade_ok (h : cancelUpgrade s env = .ok s') :
    Effect rt s env .cancelUpgrade s' := by
  simp only [cancelUpgrade, bind_eq_ok, orFail_eq_ok, pure_eq_ok, exists_unit] at h
  obtain ⟨config, hconfig, _, -, -, rfl⟩ := h
  exact Effect.maintain_of_config rfl hconfig

theorem executeUpgrade_ok {buffer : Pubkey} (h : executeUpgrade rt s env buffer = .ok s') :
    Effect rt s env (.executeUpgrade buffer) s' := by
  simp only [executeUpgrade, bind_eq_ok, orFail_eq_ok, require_eq_ok, pure_eq_ok,
    exists_unit] at h
  obtain ⟨config, hconfig, _, -, -, -, -, rfl⟩ := h
  exact Effect.maintain_of_config rfl hconfig

/-- The reserve an instruction loaded is open. -/
theorem VaultOpen.of_loadReserve {config : BridgeConfig} {mint : Mint} {reserve : TokenAccount}
    (h : loadReserve rt s config = .ok (mint, reserve)) :
    VaultOpen rt s config ∧
      s.ledger.balance (reserveTokenAccount rt config) = reserve.amount.toNat := by
  obtain ⟨hconfigured, hreserve, howner⟩ := loadReserve_ok h
  refine ⟨⟨hconfigured, ?_⟩, Ledger.balance_of_accounts hreserve⟩
  rw [Ledger.owner_of_accounts hreserve, howner]

theorem owner_of_associatedTokenAccount {ledger : Ledger} {wallet mint program : Pubkey}
    {account : TokenAccount}
    (h : associatedTokenAccount rt ledger wallet mint program = .ok account) :
    ledger.owner (rt.associatedTokenAddress wallet mint program) = some wallet := by
  obtain ⟨haccount, howner⟩ := associatedTokenAccount_ok h
  rw [Ledger.owner_of_accounts haccount, howner]

theorem releaseFromReserve_ok {txid : Bytes32} {vout : UInt32} {amount epoch : UInt64}
    {recipient : Pubkey} (h : releaseFromReserve rt s env txid vout amount epoch recipient = .ok s') :
    Effect rt s env (.releaseFromReserve txid vout amount epoch recipient) s' := by
  simp only [releaseFromReserve, bind_eq_ok, orFail_eq_ok, vacant_eq_ok, require_eq_ok,
    pure_eq_ok, exists_unit] at h
  obtain ⟨config, hconfig, keySet, hkeys, window, -, -, -, ⟨mint, reserve⟩, hload, _, -, -, -,
    hepoch, -, -, -, -, hfloor, hsigned, -, ledger, hmoved, claims, hclaims, rfl⟩ := h
  obtain ⟨hvault, hbalance⟩ := VaultOpen.of_loadReserve hload
  exact .releaseFromReserve hconfig hkeys hvault hepoch
    (hbalance ▸ enforceProtectedMinimum_ok hfloor) (requireThresholdApproval_ok hsigned)
    (Ledger.transferChecked_ok hmoved) hclaims rfl rfl

theorem depositToReserve_ok {amount : UInt64} {glcAddress : List UInt8}
    (h : depositToReserve rt s env amount glcAddress = .ok s') :
    Effect rt s env (.depositToReserve amount glcAddress) s' := by
  simp only [depositToReserve, bind_eq_ok, orFail_eq_ok, vacant_eq_ok, require_eq_ok,
    pure_eq_ok, exists_unit] at h
  obtain ⟨config, hconfig, window, -, -, -, ⟨mint, reserve⟩, hload, _, huser, -, -, -, -, -, -, -,
    nextCount, hnext, -, ledger, hmoved, obligations, hbooked, rfl⟩ := h
  exact .depositToReserve hconfig (VaultOpen.of_loadReserve hload).1
    (owner_of_associatedTokenAccount huser) (checkedAddU64_eq_some hnext)
    (Ledger.transferChecked_ok hmoved) hbooked rfl rfl rfl rfl

theorem recordGoldcoinCompletion_ok {index : UInt64} {payoutTxid : Bytes32}
    {payoutHeight amount epoch : UInt64}
    (h : recordGoldcoinCompletion rt s env index payoutTxid payoutHeight amount epoch = .ok s') :
    Effect rt s env (.recordGoldcoinCompletion index payoutTxid payoutHeight amount epoch) s' := by
  simp only [recordGoldcoinCompletion, bind_eq_ok, orFail_eq_ok, require_eq_ok, pure_eq_ok,
    exists_unit] at h
  obtain ⟨config, hconfig, keySet, hkeys, obligation, hfound, -, -, hepoch, -, hpending, -, htxid,
    hheight, data, hdata, -, hsigned, rfl⟩ := h
  exact .recordGoldcoinCompletion hconfig hkeys hfound hepoch hpending htxid hheight
    (approved_of_requireSigners hdata hsigned)

theorem rebalanceWithdraw_ne_ok {nonce : UInt64} {destination : Pubkey} :
    rebalanceWithdraw rt s env nonce destination ≠ .ok s' := by
  intro h
  simp [rebalanceWithdraw] at h

theorem treasuryWithdraw_ok {nonce amount epoch : UInt64} {destination : Pubkey}
    (h : treasuryWithdraw rt s env nonce amount epoch destination = .ok s') :
    Effect rt s env (.treasuryWithdraw nonce amount epoch destination) s' := by
  simp only [treasuryWithdraw, bind_eq_ok, orFail_eq_ok, vacant_eq_ok, require_eq_ok, pure_eq_ok,
    exists_unit] at h
  obtain ⟨config, hconfig, keySet, hkeys, policy, hpolicy, -, -, -, ⟨mint, reserve⟩, hload, _, -,
    -, -, -, hepoch, -, hdomain, -, -, haway, -, -, -, hfloor, hsigned, ledger, hmoved,
    withdrawals, hrecorded, _, -, rfl⟩ := h
  obtain ⟨hvault, hbalance⟩ := VaultOpen.of_loadReserve hload
  exact .treasuryWithdraw hconfig hkeys hpolicy hvault hepoch hdomain haway
    (hbalance ▸ enforceProtectedMinimum_ok hfloor) (requireThresholdApproval_ok hsigned)
    (Ledger.transferChecked_ok hmoved) hrecorded rfl

theorem refundWithdraw_ok {nonce amount epoch obligationIndex : UInt64}
    (h : refundWithdraw rt s env nonce amount epoch obligationIndex = .ok s') :
    Effect rt s env (.refundWithdraw nonce amount epoch obligationIndex) s' := by
  simp only [refundWithdraw, bind_eq_ok, orFail_eq_ok, vacant_eq_ok, require_eq_ok, pure_eq_ok,
    exists_unit] at h
  obtain ⟨config, hconfig, keySet, hkeys, obligation, hfound, -, -, -, ⟨mint, reserve⟩, hload, _,
    hrequester, -, hepoch, -, hdomain, hpending, hexact, -, -, -, hfloor, hsigned, ledger, hmoved,
    withdrawals, hrecorded, _, -, rfl⟩ := h
  obtain ⟨hvault, hbalance⟩ := VaultOpen.of_loadReserve hload
  exact .refundWithdraw hconfig hkeys hvault hfound hepoch hdomain hpending hexact
    (owner_of_associatedTokenAccount hrequester)
    (hbalance ▸ enforceProtectedMinimum_ok hfloor) (requireThresholdApproval_ok hsigned)
    (Ledger.transferChecked_ok hmoved) hrecorded rfl

theorem proposeAttestationKeyRotation_ok {keys : List Pubkey} {threshold : UInt8}
    (h : proposeAttestationKeyRotation rt s env keys threshold = .ok s') :
    Effect rt s env (.proposeAttestationKeyRotation keys threshold) s' := by
  simp only [proposeAttestationKeyRotation, bind_eq_ok, orFail_eq_ok, vacant_eq_ok, pure_eq_ok,
    exists_unit] at h
  obtain ⟨config, hconfig, keySet, hkeys, hidle, hvalid, hsigned, eta, heta, rfl⟩ := h
  exact .proposeAttestationKeyRotation hconfig hkeys hidle (validateAttestationKeySet_ok hvalid)
    (requireThresholdApproval_ok hsigned) rfl (checkedAddI64_eq_some heta) rfl rfl

theorem executeAttestationKeyRotation_ok (h : executeAttestationKeyRotation s env = .ok s') :
    Effect rt s env .executeAttestationKeyRotation s' := by
  simp only [executeAttestationKeyRotation, bind_eq_ok, orFail_eq_ok, require_eq_ok, pure_eq_ok,
    exists_unit] at h
  obtain ⟨config, hconfig, keySet, hkeys, pending, hpending, -, helapsed, hcurrent, hvalid, epoch,
    hepoch, rfl⟩ := h
  exact .executeAttestationKeyRotation hconfig hkeys hpending
    (Int64.le_iff_toInt_le.mp helapsed) hcurrent (validateAttestationKeySet_ok hvalid)
    (checkedAddU64_eq_some hepoch)

theorem cancelAttestationKeyRotation_ok (h : cancelAttestationKeyRotation rt s env = .ok s') :
    Effect rt s env .cancelAttestationKeyRotation s' := by
  simp only [cancelAttestationKeyRotation, bind_eq_ok, orFail_eq_ok, pure_eq_ok, exists_unit] at h
  obtain ⟨config, hconfig, keySet, hkeys, pending, hpending, hsigned, rfl⟩ := h
  exact .cancelAttestationKeyRotation hconfig hkeys hpending (requireThresholdApproval_ok hsigned)

theorem initializeRebalancePolicy_ok {treasuries : List Pubkey}
    (h : initializeRebalancePolicy rt s env treasuries = .ok s') :
    Effect rt s env (.initializeRebalancePolicy treasuries) s' := by
  simp only [initializeRebalancePolicy, bind_eq_ok, orFail_eq_ok, vacant_eq_ok, pure_eq_ok,
    exists_unit] at h
  obtain ⟨config, hconfig, keySet, hkeys, habsent, -, ⟨mint, reserve⟩, hload, hvalid, hsigned,
    rfl⟩ := h
  exact .initializeRebalancePolicy hconfig hkeys habsent (VaultOpen.of_loadReserve hload).1
    (validateRebalancePolicy_ok hvalid) (requireThresholdApproval_ok hsigned) rfl rfl rfl

theorem proposeRebalancePolicy_ok {treasuries : List Pubkey}
    (h : proposeRebalancePolicy rt s env treasuries = .ok s') :
    Effect rt s env (.proposeRebalancePolicy treasuries) s' := by
  simp only [proposeRebalancePolicy, bind_eq_ok, orFail_eq_ok, vacant_eq_ok, require_eq_ok,
    pure_eq_ok, exists_unit] at h
  obtain ⟨config, hconfig, keySet, hkeys, policy, hpolicy, hidle, -, -, hvalid, -, hsigned, eta,
    heta, rfl⟩ := h
  exact .proposeRebalancePolicy hconfig hkeys hpolicy hidle (validateRebalancePolicy_ok hvalid)
    (requireThresholdApproval_ok hsigned) rfl (checkedAddI64_eq_some heta) rfl rfl

theorem executeRebalancePolicy_ok (h : executeRebalancePolicy rt s env = .ok s') :
    Effect rt s env .executeRebalancePolicy s' := by
  simp only [executeRebalancePolicy, bind_eq_ok, orFail_eq_ok, require_eq_ok, pure_eq_ok,
    exists_unit] at h
  obtain ⟨config, hconfig, keySet, hkeys, policy, hpolicy, pending, hpending, -, -, helapsed,
    hcurrent, hvalid, version, hversion, rfl⟩ := h
  -- the array has four entries, so the prefix it yields is as long as the count
  have hlength : (pending.treasuries.toList.take
      (min pending.treasuryCount.toNat maxTreasuryDestinations)).length =
      min pending.treasuryCount.toNat maxTreasuryDestinations := by
    simp [maxTreasuryDestinations]
  have heffect := Effect.executeRebalancePolicy hconfig hkeys hpolicy hpending
    (Int64.le_iff_toInt_le.mp helapsed) hcurrent rfl (validateRebalancePolicy_ok hvalid)
    (checkedAddU64_eq_some hversion)
  rwa [listedTreasuries, hlength] at heffect

theorem cancelRebalancePolicy_ok (h : cancelRebalancePolicy rt s env = .ok s') :
    Effect rt s env .cancelRebalancePolicy s' := by
  simp only [cancelRebalancePolicy, bind_eq_ok, orFail_eq_ok, pure_eq_ok, exists_unit] at h
  obtain ⟨config, hconfig, keySet, hkeys, pending, hpending, hsigned, rfl⟩ := h
  exact .cancelRebalancePolicy hconfig hkeys hpending (requireThresholdApproval_ok hsigned)

/-- Every accepted instruction has one of the listed effects. -/
theorem Effect.of_exec {ix : Instruction} (h : exec rt s env ix = .ok s') :
    Effect rt s env ix s' := by
  cases ix with
  | initializeBridge => exact initializeBridge_ok h
  | initializeReserveVault => exact initializeReserveVault_ok h
  | setPaused => exact setPaused_ok h
  | setLimit => exact setLimit_ok h
  | transferAdmin => exact transferAdmin_ok h
  | acceptAdmin => exact acceptAdmin_ok h
  | resetRollingVolumeWindow => exact resetRollingVolumeWindow_ok h
  | proposeAttestationKeyRotation => exact proposeAttestationKeyRotation_ok h
  | executeAttestationKeyRotation => exact executeAttestationKeyRotation_ok h
  | cancelAttestationKeyRotation => exact cancelAttestationKeyRotation_ok h
  | releaseFromReserve => exact releaseFromReserve_ok h
  | depositToReserve => exact depositToReserve_ok h
  | recordGoldcoinCompletion => exact recordGoldcoinCompletion_ok h
  | acceptUpgradeAuthority => exact acceptUpgradeAuthority_ok h
  | proposeUpgrade => exact proposeUpgrade_ok h
  | executeUpgrade => exact executeUpgrade_ok h
  | cancelUpgrade => exact cancelUpgrade_ok h
  | rebalanceWithdraw => exact absurd h rebalanceWithdraw_ne_ok
  | treasuryWithdraw => exact treasuryWithdraw_ok h
  | refundWithdraw => exact refundWithdraw_ok h
  | initializeRebalancePolicy => exact initializeRebalancePolicy_ok h
  | proposeRebalancePolicy => exact proposeRebalancePolicy_ok h
  | executeRebalancePolicy => exact executeRebalancePolicy_ok h
  | cancelRebalancePolicy => exact cancelRebalancePolicy_ok h

theorem step_call {ix : Instruction} (h : step rt s (.call env ix) = some s') :
    Admissible rt env ∧ Effect rt s env ix s' := by
  simp only [step] at h
  split_ifs at h with hadmissible
  exact ⟨hadmissible, Effect.of_exec (toOption_eq_some.mp h)⟩

theorem step_external {change : External rt} {upgradeAuthority : Option Pubkey}
    (h : step rt s (.external change upgradeAuthority) = some s') :
    s' = { s with ledger := change.apply s.ledger, upgradeAuthority := upgradeAuthority } :=
  (Option.some.inj h).symm

/-- The chain before the program is initialized: no account of the program
exists. -/
structure Pristine (s : Chain) : Prop where
  config : s.config = none
  keySet : s.keySet = none
  pendingAction : s.pendingAction = none
  policy : s.policy = none
  pendingPolicy : s.pendingPolicy = none
  claims : s.claims = .empty
  obligations : s.obligations = .empty
  withdrawals : s.withdrawals = .empty

end Solana
