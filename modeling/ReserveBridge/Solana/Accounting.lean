-- SUMMARY: The books of the Solana reserve: over every run, the vault balance equals what came in less what the permanent records say went out, and no instruction takes it below the protected minimum.
import ReserveBridge.Lib.Run
import ReserveBridge.Service.Ed25519
import ReserveBridge.Solana.Step

/-!
# Reserve accounting

Each instruction that moves reserve tokens leaves one record with the moved
amount, and records are never rewritten or removed. So the balance of the vault
and the sums over the records move together.

The two accounts of a transfer are told apart by their owners. The vault
belongs to the reserve authority, which signs nothing and so is never the user
of a deposit, nor therefore the requester of a refund.
-/

namespace Solana

/-! ## The books -/

/-- The mint and token program a vault was created for. -/
structure Vault where
  mint : Pubkey
  tokenProgram : Pubkey

namespace Vault

variable (rt : Runtime) (v : Vault)

/-- The associated token address of a wallet, for the vault's mint. -/
def wallet (owner : Pubkey) : Pubkey := rt.associatedTokenAddress owner v.mint v.tokenProgram

/-- The reserve token account. -/
def address : Pubkey := v.wallet rt rt.reserveAuthority

def balance (s : Chain) : ℕ := s.ledger.balance (v.address rt)

/-- What a release took out of the vault: nothing when it was paid to the vault
itself. -/
def debit (claim : DepositClaim) : ℕ :=
  if v.wallet rt claim.recipient = v.address rt then 0 else claim.amount.toNat

/-- What the records say went out. -/
def paidOut (s : Chain) : ℕ :=
  s.claims.total (v.debit rt) + s.withdrawals.total fun w => w.amount.toNat

/-- What an operation outside the program added to the vault. -/
def credit : Chain × Op rt → ℕ
  | (s, .external change _) => (change.apply s.ledger).balance (v.address rt) - v.balance rt s
  | (_, .call ..) => 0

end Vault

/-- What the records say came in. -/
def takenIn (s : Chain) : ℕ := s.obligations.total fun o => o.amount.toNat

/-- What the accounting rests on once the vault exists. -/
structure Kept (rt : Runtime) (v : Vault) (s : Chain) : Prop where
  config : ∃ config, s.config = some config ∧ config.reserveTokenMint = v.mint ∧
    config.reserveTokenProgram = v.tokenProgram
  configured : v.mint ≠ Pubkey.default
  owner : s.ledger.owner (v.address rt) = some rt.reserveAuthority
  requester : ∀ index o, s.obligations.get? index = some o → o.requester ≠ rt.reserveAuthority

variable {rt : Runtime} {v : Vault} {s s' : Chain} {env : Env} {ix : Instruction}
  {config : BridgeConfig}

theorem Kept.of_config (h : Kept rt v s) (hconfig : s.config = some config) :
    config.reserveTokenMint = v.mint ∧ config.reserveTokenProgram = v.tokenProgram := by
  obtain ⟨config', hconfig', hvault⟩ := h.config
  obtain rfl := Option.some.inj (hconfig.symm.trans hconfig')
  exact hvault

/-- A configuration in force names the vault. -/
theorem Kept.reserveTokenAccount_eq (h : Kept rt v s) (hconfig : s.config = some config) :
    reserveTokenAccount rt config = v.address rt := by
  rw [reserveTokenAccount, (h.of_config hconfig).1, (h.of_config hconfig).2]
  rfl

theorem Kept.wallet_eq (h : Kept rt v s) (hconfig : s.config = some config) (owner : Pubkey) :
    rt.associatedTokenAddress owner config.reserveTokenMint config.reserveTokenProgram =
      v.wallet rt owner := by
  rw [(h.of_config hconfig).1, (h.of_config hconfig).2]
  rfl

/-- An account that belongs to somebody else is not the vault. -/
theorem Kept.ne_address (h : Kept rt v s) {address owner : Pubkey}
    (howner : s.ledger.owner address = some owner) (hne : owner ≠ rt.reserveAuthority) :
    address ≠ v.address rt := by
  rintro rfl
  exact hne (Option.some.inj (howner.symm.trans h.owner))

/-! ## One step -/

theorem Kept.effect (h : Kept rt v s) (henv : Admissible rt env) (heffect : Effect rt s env ix s') :
    Kept rt v s' := by
  obtain ⟨config₀, hconfig₀, hmint, hprogram⟩ := h.config
  cases heffect with
  | initializeBridge fresh => simp [hconfig₀] at fresh
  | initializeReserveVault config_eq unconfigured =>
    rw [(h.of_config config_eq).1] at unconfigured
    exact absurd unconfigured h.configured
  | maintain kind config_eq retuned =>
    obtain ⟨hmint, hprogram⟩ := h.of_config config_eq
    exact ⟨⟨_, rfl, retuned.reserveTokenMint.trans hmint,
      retuned.reserveTokenProgram.trans hprogram⟩, h.configured, h.owner, h.requester⟩
  | releaseFromReserve config_eq keySet_eq vault epoch floor signed moved =>
    exact ⟨h.config, h.configured, (moved.owner _).trans h.owner, h.requester⟩
  | depositToReserve config_eq vault user_owner next moved booked index amount requester =>
    obtain ⟨hmint, hprogram⟩ := h.of_config config_eq
    exact ⟨⟨_, rfl, hmint, hprogram⟩, h.configured, (moved.owner _).trans h.owner,
      Store.forall_init booked (requester ▸ henv.1) h.requester⟩
  | recordGoldcoinCompletion =>
    exact ⟨h.config, h.configured, h.owner, Store.forall_modify
      (fun _ _ => WithdrawalObligation.requester_ne_of_terms (by simp)) h.requester⟩
  | treasuryWithdraw config_eq keySet_eq policy_eq vault epoch domain away floor signed moved =>
    exact ⟨h.config, h.configured, (moved.owner _).trans h.owner, h.requester⟩
  | refundWithdraw config_eq keySet_eq vault found epoch domain pending exact_ requester floor
      signed moved =>
    exact ⟨h.config, h.configured, (moved.owner _).trans h.owner, Store.forall_modify
      (fun _ _ => WithdrawalObligation.requester_ne_of_terms (by simp)) h.requester⟩
  | proposeAttestationKeyRotation | executeAttestationKeyRotation | cancelAttestationKeyRotation
  | initializeRebalancePolicy | proposeRebalancePolicy | executeRebalancePolicy
  | cancelRebalancePolicy => exact ⟨h.config, h.configured, h.owner, h.requester⟩

/-- What happens outside the program leaves the vault with the reserve
authority and does not debit it. -/
theorem Kept.external (h : Kept rt v s) (change : External rt) :
    (change.apply s.ledger).owner (v.address rt) = some rt.reserveAuthority ∧
      v.balance rt s ≤ (change.apply s.ledger).balance (v.address rt) := by
  obtain ⟨account, haccount, howner⟩ := Option.map_eq_some_iff.mp h.owner
  obtain ⟨account', haccount', howner', -, -, hle⟩ :=
    change.undebited s.ledger _ account haccount howner
  refine ⟨by rw [Ledger.owner_of_accounts haccount', howner', howner], ?_⟩
  rw [Vault.balance, Ledger.balance_of_accounts haccount, Ledger.balance_of_accounts haccount']
  exact UInt64.le_iff_toNat_le.mp hle

theorem Kept.step (h : Kept rt v s) {op : Op rt} (hstep : step rt s op = some s') :
    Kept rt v s' := by
  cases op with
  | call env ix =>
    obtain ⟨henv, heffect⟩ := step_call hstep
    exact h.effect henv heffect
  | external change upgradeAuthority =>
    obtain rfl := step_external hstep
    exact ⟨h.config, h.configured, (h.external change).1, h.requester⟩

/-- A deposit comes from an account other than the vault. -/
theorem Kept.balance_deposit (h : Kept rt v s) (henv : Admissible rt env)
    (hconfig : s.config = some config) {amount : UInt64} {ledger : Ledger}
    (howner : s.ledger.owner (rt.associatedTokenAddress env.signer config.reserveTokenMint
      config.reserveTokenProgram) = some env.signer)
    (hmoved : s.ledger.Moved ledger
      (rt.associatedTokenAddress env.signer config.reserveTokenMint config.reserveTokenProgram)
      (reserveTokenAccount rt config) amount) :
    ledger.balance (v.address rt) = v.balance rt s + amount.toNat := by
  have hbalance := hmoved.balance (v.address rt)
  have huser := h.ne_address howner henv.1
  rwa [h.reserveTokenAccount_eq hconfig, if_neg huser.symm, if_pos rfl] at hbalance

/-- An accepted instruction moves the balance by what it records. -/
theorem Kept.balanced (h : Kept rt v s) (henv : Admissible rt env)
    (heffect : Effect rt s env ix s') :
    v.balance rt s' + v.paidOut rt s' + takenIn s =
      v.balance rt s + v.paidOut rt s + takenIn s' := by
  cases heffect with
  | initializeReserveVault config_eq unconfigured =>
    rw [(h.of_config config_eq).1] at unconfigured
    exact absurd unconfigured h.configured
  | @releaseFromReserve _ _ amount _ recipient _ _ _ claim _ _ config_eq keySet_eq vault epoch
      floor signed moved claimed claim_amount claim_recipient =>
    have hmoved := moved.balance (v.address rt)
    -- a release to the vault itself is debited and credited in one transfer
    have hdebit : v.debit rt claim =
        if v.address rt = v.wallet rt recipient then 0 else amount.toNat := by
      rw [Vault.debit, claim_recipient, claim_amount]
      exact if_congr eq_comm rfl rfl
    rw [h.reserveTokenAccount_eq config_eq, h.wallet_eq config_eq, if_pos rfl] at hmoved
    simp only [Vault.balance, Vault.paidOut, takenIn, Store.total_init claimed, hdebit]
    split_ifs at hmoved ⊢ <;> omega
  | @depositToReserve amount _ _ _ _ _ _ _ config_eq vault user_owner next moved booked index
      obligation_amount =>
    have hmoved := h.balance_deposit henv config_eq user_owner moved
    simp only [Vault.balance, Vault.paidOut, takenIn, Store.total_init booked,
      obligation_amount] at hmoved ⊢
    omega
  | recordGoldcoinCompletion =>
    simp only [Vault.balance, Vault.paidOut, takenIn]
    rw [Store.total_modify fun o => by
      rw [WithdrawalObligation.amount_eq_of_terms (o.terms_complete _ _)]]
  | treasuryWithdraw config_eq keySet_eq policy_eq vault epoch domain away floor signed moved
      recorded withdrawal_amount =>
    have hmoved := moved.balance (v.address rt)
    rw [h.reserveTokenAccount_eq config_eq] at away hmoved
    rw [if_pos rfl, if_neg away.symm] at hmoved
    simp only [Vault.balance, Vault.paidOut, takenIn, Store.total_init recorded,
      withdrawal_amount]
    omega
  | refundWithdraw config_eq keySet_eq vault found epoch domain pending exact_ requester_owner
      floor signed moved recorded withdrawal_amount =>
    have hmoved := moved.balance (v.address rt)
    have hrequester := h.ne_address requester_owner (h.requester _ _ found)
    rw [h.reserveTokenAccount_eq config_eq, if_pos rfl, if_neg hrequester.symm] at hmoved
    simp only [Vault.balance, Vault.paidOut, takenIn, Store.total_init recorded,
      withdrawal_amount]
    -- the obligation keeps its amount, so what came in stays on the books
    rw [Store.total_modify fun o => by
      rw [WithdrawalObligation.amount_eq_of_terms o.terms_refund]]
    omega
  | initializeBridge | maintain | proposeAttestationKeyRotation | executeAttestationKeyRotation
  | cancelAttestationKeyRotation | initializeRebalancePolicy | proposeRebalancePolicy
  | executeRebalancePolicy | cancelRebalancePolicy => rfl

/-- An accepted instruction that takes from the vault leaves the protected
minimum in it. -/
theorem Kept.floor (h : Kept rt v s) (henv : Admissible rt env)
    (heffect : Effect rt s env ix s') (hless : v.balance rt s' < v.balance rt s) :
    ∃ config, s.config = some config ∧ config.protectedMinimum.toNat ≤ v.balance rt s' := by
  cases heffect with
  | initializeReserveVault config_eq unconfigured =>
    rw [(h.of_config config_eq).1] at unconfigured
    exact absurd unconfigured h.configured
  | releaseFromReserve config_eq keySet_eq vault epoch floor signed moved
  | treasuryWithdraw config_eq keySet_eq policy_eq vault epoch domain away floor signed moved
  | refundWithdraw config_eq keySet_eq vault found epoch domain pending exact_ requester_owner
      floor signed moved =>
    have hmoved := moved.balance (v.address rt)
    rw [h.reserveTokenAccount_eq config_eq] at floor hmoved
    rw [if_pos rfl] at hmoved
    refine ⟨_, config_eq, ?_⟩
    simp only [Vault.balance] at hless ⊢
    omega
  | depositToReserve config_eq vault user_owner next moved =>
    have hmoved := h.balance_deposit henv config_eq user_owner moved
    simp only [Vault.balance] at hless hmoved
    omega
  | initializeBridge | maintain | recordGoldcoinCompletion | proposeAttestationKeyRotation
  | executeAttestationKeyRotation | cancelAttestationKeyRotation | initializeRebalancePolicy
  | proposeRebalancePolicy | executeRebalancePolicy | cancelRebalancePolicy =>
    exact absurd hless (lt_irrefl _)

/-! ## Before the vault exists -/

/-- While no vault is configured there are no records. -/
def Unbooked (s : Chain) : Prop :=
  (∀ config, s.config = some config → config.reserveTokenMint = Pubkey.default) →
    s.claims = .empty ∧ s.obligations = .empty ∧ s.withdrawals = .empty

theorem Unbooked.effect (h : Unbooked s) (heffect : Effect rt s env ix s') : Unbooked s' := by
  intro hunconfigured
  cases heffect with
  | initializeBridge fresh => exact h (by simp [fresh.1])
  | initializeReserveVault config_eq unconfigured configured =>
    exact absurd (hunconfigured _ rfl) configured
  | maintain kind config_eq retuned =>
    refine h fun config hconfig => ?_
    obtain rfl := Option.some.inj (config_eq.symm.trans hconfig)
    rw [← retuned.reserveTokenMint]
    exact hunconfigured _ rfl
  | depositToReserve config_eq vault => exact absurd (hunconfigured _ rfl) vault.configured
  | releaseFromReserve config_eq keySet_eq vault
  | treasuryWithdraw config_eq keySet_eq policy_eq vault
  | refundWithdraw config_eq keySet_eq vault =>
    exact absurd (hunconfigured _ config_eq) vault.configured
  | recordGoldcoinCompletion config_eq keySet_eq found =>
    rw [(h hunconfigured).2.1] at found
    simp [Store.get?, Store.empty] at found
  | proposeAttestationKeyRotation | executeAttestationKeyRotation | cancelAttestationKeyRotation
  | initializeRebalancePolicy | proposeRebalancePolicy | executeRebalancePolicy
  | cancelRebalancePolicy => exact h hunconfigured

theorem Unbooked.step (h : Unbooked s) {op : Op rt} (hstep : step rt s op = some s') :
    Unbooked s' := by
  cases op with
  | call env ix => exact h.effect (step_call hstep).2
  | external change upgradeAuthority =>
    obtain rfl := step_external hstep
    exact h

theorem Pristine.unbooked (h : Pristine s) : Unbooked s :=
  fun _ => ⟨h.claims, h.obligations, h.withdrawals⟩

/-- A new vault starts with empty books. -/
theorem Unbooked.create (h : Unbooked s) {mint tokenProgram : Pubkey}
    (hcreate : Solana.step rt s (.call env (.initializeReserveVault mint tokenProgram)) = some s') :
    Kept rt ⟨mint, tokenProgram⟩ s' ∧ Vault.paidOut rt ⟨mint, tokenProgram⟩ s' = 0 ∧
      takenIn s' = 0 := by
  cases (step_call hcreate).2 with
  | maintain kind => simp [Instruction.maintenance] at kind
  | initializeReserveVault config_eq unconfigured configured absent owner =>
    obtain ⟨hclaims, hobligations, hwithdrawals⟩ := h fun config hconfig => by
      obtain rfl := Option.some.inj (config_eq.symm.trans hconfig)
      exact unconfigured
    refine ⟨⟨⟨_, rfl, rfl, rfl⟩, configured, ?_, ?_⟩, ?_, ?_⟩
    · simp [Ledger.owner, Vault.address, Vault.wallet, owner]
    · simp [hobligations, Store.get?, Store.empty]
    · simp [Vault.paidOut, hclaims, hwithdrawals, Store.total, Store.empty]
    · simp [takenIn, hobligations, Store.total, Store.empty]

/-! ## A sample deployment -/

/-- A key whose bytes are all the same. -/
def sampleKey (n : UInt8) : Pubkey := Vector.replicate 32 n

/-- A checksum stands for the hash. Associated addresses are the wallet's
shifted by 100, whatever the mint and the token program. -/
def sampleRuntime : Runtime where
  programId := sampleKey 90
  sha256 := fun bytes => sampleKey (bytes.foldl (· + ·) 0)
  reserveAuthority := sampleKey 91
  upgradeAuthorityPda := sampleKey 92
  associatedTokenAddress := fun wallet _ _ => sampleKey (wallet[0] + 100)
  associatedExtensions := fun _ => [.immutableOwner]
  bump := fun _ => 255
  ed25519Program := sampleKey 93
  tokenPrograms := [sampleKey 94]
  ed25519Accepts := fun _ => true

def sampleMint : Pubkey := sampleKey 50

/-- One mint, and one user with 1000 units of it. -/
def sampleLedger : Ledger where
  mints := fun a => if a = sampleMint then some ⟨sampleKey 94, 8, some []⟩ else none
  accounts := fun a =>
    if a = sampleKey 101 then
      some ⟨sampleKey 94, sampleMint, sampleKey 1, 1000, false, some [.immutableOwner]⟩
    else none
  default_not_mint := by decide

def sampleChain : Chain where
  config := none
  keySet := none
  releaseWindow := none
  depositWindow := none
  pendingAction := none
  policy := none
  pendingPolicy := none
  pendingUpgrade := none
  upgradeAuthority := some (sampleKey 2)
  claims := .empty
  obligations := .empty
  withdrawals := .empty
  ledger := sampleLedger

theorem sampleChain_pristine : Pristine sampleChain :=
  ⟨rfl, rfl, rfl, rfl, rfl, rfl, rfl, rfl⟩

def sampleEnv (signer : UInt8) (now : Int64) : Env := ⟨sampleKey signer, now, 7, none⟩

def sampleArgs : InitializeArgs where
  attestationKeys := [sampleKey 11, sampleKey 12, sampleKey 13]
  threshold := 2
  governanceTimelockSeconds := 100
  minTransferAmount := 1
  perTransferLimit := 500
  protectedMinimum := 10
  rollingVolumeLimit := 500
  rollingWindowSeconds := 1000
  upgradeTimelockSeconds := 100

def sampleVault : Vault := ⟨sampleMint, sampleKey 94⟩

def sampleInitialize : Op sampleRuntime := .call (sampleEnv 2 0) (.initializeBridge sampleArgs)

def sampleCreateVault : Op sampleRuntime :=
  .call (sampleEnv 2 0) (.initializeReserveVault sampleVault.mint sampleVault.tokenProgram)

/-- The chain after initialization and vault creation. -/
def sampleOpened : Chain :=
  Run.final (step sampleRuntime) sampleChain [sampleInitialize, sampleCreateVault]

theorem sampleOpened_created :
    step sampleRuntime (Run.final (step sampleRuntime) sampleChain [sampleInitialize])
      sampleCreateVault = some sampleOpened := rfl

/-- The user deposits. -/
def sampleDeposit (amount : UInt64) : Op sampleRuntime :=
  .call (sampleEnv 1 5) (.depositToReserve amount [1, 2, 3])

/-- Two deposits, and the pause that a refund asks for. -/
def sampleDeposits : List (Op sampleRuntime) :=
  [sampleDeposit 40, sampleDeposit 30, .call (sampleEnv 2 6) (.setPaused .global true)]

def samplePaused : Chain := Run.final (step sampleRuntime) sampleOpened sampleDeposits

/-- A call with a proof over `message` by two of the three keys. -/
def sampleSigned (now : Int64) (message : List UInt8) : Env where
  signer := sampleKey 3
  unixTimestamp := now
  slot := 7
  previous := some (sampleRuntime.ed25519Program,
    (Service.buildAttestationProof sampleRuntime.ed25519Program
      [(sampleKey 11, Vector.replicate 64 11), (sampleKey 12, Vector.replicate 64 12)]
      message).data)

/-- The administrator refunds the first deposit. -/
def sampleRefund : Op sampleRuntime :=
  .call { sampleSigned 7 (Shared.refundWithdrawClaimMessage protocolVersion sampleRuntime.programId 0
      nonceDomainRefund 40 (sampleKey 101) sampleMint (sampleKey 191) 0 (sampleKey 1)) with
    signer := sampleKey 2 }
    (.refundWithdraw nonceDomainRefund 40 0 0)

/-- The refund takes 40 of the 70 in the vault, and closes the obligation. -/
theorem sampleRefund_accepted :
    sampleVault.balance sampleRuntime samplePaused = 70 ∧
    ∃ s', step sampleRuntime samplePaused sampleRefund = some s' ∧
      sampleVault.balance sampleRuntime s' = 30 ∧ sampleVault.paidOut sampleRuntime s' = 40 ∧
      (s'.obligations.get? 0).map WithdrawalObligation.status = some .refunded := by
  have hrun : sampleVault.balance sampleRuntime samplePaused = 70 ∧
      (step sampleRuntime samplePaused sampleRefund).map (fun s' =>
        (sampleVault.balance sampleRuntime s', sampleVault.paidOut sampleRuntime s',
          (s'.obligations.get? 0).map WithdrawalObligation.status)) =
        some (30, 40, some .refunded) := by
    decide +kernel
  obtain ⟨hbefore, hmap⟩ := hrun
  obtain ⟨s', hs', hafter⟩ := Option.map_eq_some_iff.mp hmap
  simp only [Prod.mk.injEq] at hafter
  exact ⟨hbefore, s', hs', hafter⟩

/-! ## Every run -/

theorem Kept.balanced_step (h : Kept rt v s) {op : Op rt} (hstep : Solana.step rt s op = some s') :
    (v.balance rt s' + v.paidOut rt s') + takenIn s =
      (v.balance rt s + v.paidOut rt s) + takenIn s' + v.credit rt (s, op) := by
  cases op with
  | call env ix =>
    obtain ⟨henv, heffect⟩ := step_call hstep
    exact h.balanced henv heffect
  | external change upgradeAuthority =>
    obtain rfl := step_external hstep
    have hle := (h.external change).2
    simp only [Vault.credit, Vault.balance, Vault.paidOut, takenIn] at hle ⊢
    omega

/-- From the creation of the vault on, whatever instructions are called and
whatever happens outside the program, the balance is the opening balance, plus
outside credits, plus all obligations ever booked, less all releases and
withdrawals. A release to the vault itself does not count. A step that takes
from the vault leaves the protected minimum in force. -/
theorem reserve_accounting_of_run {s₀ created : Chain} (hs₀ : Pristine s₀)
    (before after : List (Op rt)) {mint tokenProgram : Pubkey}
    (hcreate : step rt (Run.final (step rt) s₀ before)
      (.call env (.initializeReserveVault mint tokenProgram)) = some created) :
    (Vault.balance rt ⟨mint, tokenProgram⟩ (Run.final (step rt) created after) +
        Vault.paidOut rt ⟨mint, tokenProgram⟩ (Run.final (step rt) created after) =
      Vault.balance rt ⟨mint, tokenProgram⟩ created +
        ((Run.history (step rt) created after).map (Vault.credit rt ⟨mint, tokenProgram⟩)).sum +
        takenIn (Run.final (step rt) created after)) ∧
    (∀ s op s', (s, op) ∈ Run.history (step rt) created after → step rt s op = some s' →
      Vault.balance rt ⟨mint, tokenProgram⟩ s' < Vault.balance rt ⟨mint, tokenProgram⟩ s →
        ∃ config, s.config = some config ∧
          config.protectedMinimum.toNat ≤ Vault.balance rt ⟨mint, tokenProgram⟩ s') := by
  have hunbooked : Unbooked (Run.final (step rt) s₀ before) :=
    Run.invariant (fun _ _ _ h => h.step) hs₀.unbooked before
  obtain ⟨hkept, hpaid, htaken⟩ := hunbooked.create hcreate
  have hinv : ∀ s (op : Op rt) s', Kept rt ⟨mint, tokenProgram⟩ s → step rt s op = some s' →
      Kept rt ⟨mint, tokenProgram⟩ s' := fun _ _ _ h => h.step
  refine ⟨?_, fun s op s' hmem hstep hless => ?_⟩
  · have hrun := Run.balanced (Kept rt ⟨mint, tokenProgram⟩)
      (fun s => Vault.balance rt ⟨mint, tokenProgram⟩ s + Vault.paidOut rt ⟨mint, tokenProgram⟩ s)
      takenIn (Vault.credit rt ⟨mint, tokenProgram⟩) hinv (fun _ _ _ h => h.balanced_step) hkept
      after
    omega
  · have hs := Run.invariant_history hinv hkept hmem
    cases op with
    | call env ix =>
      obtain ⟨henv, heffect⟩ := step_call hstep
      exact hs.floor henv heffect hless
    | external change upgradeAuthority =>
      obtain rfl := step_external hstep
      exact absurd hless (not_lt.mpr (hs.external change).2)

/-- Two deposits of 40 and 30, and the refund of the first: what is left is above
the protected minimum of 10. -/
theorem reserve_accounting_of_run_sample : ∃ s',
    step sampleRuntime samplePaused sampleRefund = some s' ∧
    sampleVault.balance sampleRuntime s' = 30 ∧ sampleVault.paidOut sampleRuntime s' = 40 ∧
    takenIn s' = 70 ∧
    ∃ config, samplePaused.config = some config ∧
      config.protectedMinimum.toNat ≤ sampleVault.balance sampleRuntime s' := by
  obtain ⟨hbefore, s', hstep, hbalance, hpaid, -⟩ := sampleRefund_accepted
  have hrun := reserve_accounting_of_run sampleChain_pristine [sampleInitialize]
    (sampleDeposits ++ [sampleRefund]) sampleOpened_created
  have heta : (⟨sampleVault.mint, sampleVault.tokenProgram⟩ : Vault) = sampleVault := rfl
  rw [heta] at hrun
  have hfinal : Run.final (step sampleRuntime) sampleOpened (sampleDeposits ++ [sampleRefund]) = s' := by
    rw [Run.final_append, ← samplePaused, Run.final_cons, Run.advance_of_some hstep, Run.final_nil]
  have hlast : (samplePaused, sampleRefund) ∈
      Run.history (step sampleRuntime) sampleOpened (sampleDeposits ++ [sampleRefund]) := by
    rw [Run.history_append, ← samplePaused, Run.history_cons_of_some hstep]
    exact List.mem_append_right _ List.mem_cons_self
  -- nothing comes from outside the program
  have hcredit : ((Run.history (step sampleRuntime) sampleOpened
      (sampleDeposits ++ [sampleRefund])).map (sampleVault.credit sampleRuntime)).sum = 0 := by
    refine List.sum_eq_zero fun n hn => ?_
    obtain ⟨⟨s, op⟩, hmem, rfl⟩ := List.mem_map.mp hn
    have hop : op ∈ sampleDeposits ++ [sampleRefund] :=
      Run.history_sublist.subset (List.mem_map_of_mem hmem)
    simp only [sampleDeposits, List.cons_append, List.nil_append, List.mem_cons, List.not_mem_nil,
      or_false] at hop
    rcases hop with rfl | rfl | rfl | rfl <;> rfl
  have hopened : sampleVault.balance sampleRuntime sampleOpened = 0 := by decide
  obtain ⟨hsums, hfloor⟩ := hrun
  rw [hcredit, hfinal, hbalance, hpaid, hopened] at hsums
  exact ⟨s', hstep, hbalance, hpaid, by omega, hfloor _ _ _ hlast hstep (by omega)⟩

end Solana
