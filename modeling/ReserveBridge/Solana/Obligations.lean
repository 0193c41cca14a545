-- SUMMARY: The life of a withdrawal obligation and the replay guards of the Solana reserve: dense indices, immutable terms, one terminal status, and single use of deposit outpoints and withdrawal nonces.
import ReserveBridge.Lib.Run
import ReserveBridge.Solana.Accounting

/-!
# Obligations and replay

An obligation is booked by a deposit under the next index and leaves `pending`
at most once, by the record of its Goldcoin payout or by a refund. A claim and
a withdrawal record are each created once under the key they guard, so that the
key cannot be used again.
-/

namespace Solana

variable {rt : Runtime} {s s' : Chain} {env : Env} {ix : Instruction}

/-! ## Indices -/

/-- The obligations are indexed `0, 1, 2, …` up to the count, and were booked by
somebody who can sign. -/
structure Indexed (rt : Runtime) (s : Chain) : Prop where
  keys : ∀ config, s.config = some config →
    s.obligations.keys.map UInt64.toNat = List.range config.obligationCount.toNat
  unset : s.config = none → s.obligations.keys = []
  index : ∀ index o, s.obligations.get? index = some o → o.index = index
  requester : ∀ index o, s.obligations.get? index = some o → o.requester ≠ rt.reserveAuthority

theorem Pristine.indexed (h : Pristine s) : Indexed rt s where
  keys config hconfig := by simp [h.config] at hconfig
  unset _ := by simp [h.obligations, Store.keys, Store.empty]
  index index o ho := by simp [h.obligations, Store.get?, Store.empty] at ho
  requester index o ho := by simp [h.obligations, Store.get?, Store.empty] at ho

/-- An update that keeps the terms of the records keeps the invariant. -/
theorem Indexed.modify (h : Indexed rt s) {i : UInt64}
    {f : WithdrawalObligation → WithdrawalObligation} (hf : ∀ o, (f o).terms = o.terms)
    {withdrawals : Store UInt64 RebalanceWithdrawal} {ledger : Ledger} :
    Indexed rt { s with
      obligations := s.obligations.modify i f, withdrawals := withdrawals, ledger := ledger } := by
  have hindex : ∀ index o, o.index = index → (f o).index = index := fun _ o ho =>
    (WithdrawalObligation.index_eq_of_terms (hf o)).trans ho
  exact ⟨by simpa using h.keys, by simpa using h.unset, Store.forall_modify hindex h.index,
    Store.forall_modify (fun _ o => WithdrawalObligation.requester_ne_of_terms (hf o))
      h.requester⟩

theorem Indexed.effect (h : Indexed rt s) (henv : Admissible rt env)
    (heffect : Effect rt s env ix s') : Indexed rt s' := by
  cases heffect with
  | initializeBridge fresh valid epoch unconfigured empty =>
    refine ⟨fun config hconfig => ?_, by simp, h.index, h.requester⟩
    obtain rfl := Option.some.inj hconfig
    simp [h.unset fresh.1, empty]
  | initializeReserveVault config_eq =>
    refine ⟨fun config hconfig => ?_, by simp, h.index, h.requester⟩
    have hkeys := h.keys _ config_eq
    obtain rfl := Option.some.inj hconfig
    exact hkeys
  | maintain kind config_eq retuned =>
    refine ⟨fun config hconfig => ?_, by simp, h.index, h.requester⟩
    obtain rfl := Option.some.inj hconfig
    rw [retuned.obligationCount]
    exact h.keys _ config_eq
  | depositToReserve config_eq vault user_owner next moved booked index amount requester =>
    refine ⟨fun config hconfig => ?_, by simp, Store.forall_init booked index h.index,
      Store.forall_init booked (requester ▸ henv.1) h.requester⟩
    obtain rfl := Option.some.inj hconfig
    simp [Store.keys_init booked, h.keys _ config_eq, next, List.range_succ]
  | recordGoldcoinCompletion => exact h.modify fun o => by simp
  | refundWithdraw => exact h.modify fun o => by simp
  | proposeAttestationKeyRotation | executeAttestationKeyRotation | cancelAttestationKeyRotation
  | releaseFromReserve | treasuryWithdraw | initializeRebalancePolicy | proposeRebalancePolicy
  | executeRebalancePolicy | cancelRebalancePolicy =>
    exact ⟨h.keys, h.unset, h.index, h.requester⟩

theorem Indexed.step (h : Indexed rt s) {op : Op rt} (hstep : step rt s op = some s') :
    Indexed rt s' := by
  cases op with
  | call env ix =>
    obtain ⟨henv, heffect⟩ := step_call hstep
    exact h.effect henv heffect
  | external change upgradeAuthority =>
    obtain rfl := step_external hstep
    exact ⟨h.keys, h.unset, h.index, h.requester⟩

/-! ## The life of an obligation -/

/-- How a step can touch the record under an index: leave it, book it, complete
it, or refund it. -/
inductive Lifecycle (rt : Runtime) (s s' : Chain) (index : UInt64) :
    Op rt → Option WithdrawalObligation → WithdrawalObligation → Prop
  | kept {op : Op rt} {o : WithdrawalObligation} : Lifecycle rt s s' index op (some o) o
  | booked {env : Env} {amount : UInt64} {glcAddress : List UInt8} {o : WithdrawalObligation}
      (pending : o.status = .pending) :
      Lifecycle rt s s' index (.call env (.depositToReserve amount glcAddress)) none o
  | completed {env : Env} {payoutTxid : Bytes.Bytes32} {payoutHeight amount epoch : UInt64}
      {o o' : WithdrawalObligation} (pending : o.status = .pending)
      (status : o'.status = .completed) (terms : o'.terms = o.terms)
      (record : o'.payoutRecord = some (payoutTxid, payoutHeight))
      (nonzero : payoutTxid ≠ Vector.replicate 32 0 ∧ payoutHeight ≠ 0) :
      Lifecycle rt s s' index
        (.call env (.recordGoldcoinCompletion index payoutTxid payoutHeight amount epoch))
        (some o) o'
  | refunded {env : Env} {nonce epoch : UInt64} {config : BridgeConfig}
      {o o' : WithdrawalObligation} (pending : o.status = .pending)
      (status : o'.status = .refunded) (terms : o'.terms = o.terms)
      (config_eq : s.config = some config)
      (paid : s'.ledger.balance (rt.associatedTokenAddress o.requester config.reserveTokenMint
          config.reserveTokenProgram) =
        s.ledger.balance (rt.associatedTokenAddress o.requester config.reserveTokenMint
          config.reserveTokenProgram) + o.amount.toNat)
      (taken : s'.ledger.balance (reserveTokenAccount rt config) + o.amount.toNat =
        s.ledger.balance (reserveTokenAccount rt config)) :
      Lifecycle rt s s' index (.call env (.refundWithdraw nonce o.amount epoch index))
        (some o) o'

/-- A refund pays the requester's own account, which is not the vault. -/
theorem Indexed.refund_balances (h : Indexed rt s) {config : BridgeConfig}
    {o : WithdrawalObligation} {index : UInt64} {ledger : Ledger}
    (hfound : s.obligations.get? index = some o) (hvault : VaultOpen rt s config)
    (howner : s.ledger.owner (rt.associatedTokenAddress o.requester config.reserveTokenMint
      config.reserveTokenProgram) = some o.requester)
    (hmoved : s.ledger.Moved ledger (reserveTokenAccount rt config)
      (rt.associatedTokenAddress o.requester config.reserveTokenMint config.reserveTokenProgram)
      o.amount) :
    ledger.balance (rt.associatedTokenAddress o.requester config.reserveTokenMint
        config.reserveTokenProgram) =
      s.ledger.balance (rt.associatedTokenAddress o.requester config.reserveTokenMint
        config.reserveTokenProgram) + o.amount.toNat ∧
    ledger.balance (reserveTokenAccount rt config) + o.amount.toNat =
      s.ledger.balance (reserveTokenAccount rt config) := by
  have hne : rt.associatedTokenAddress o.requester config.reserveTokenMint
      config.reserveTokenProgram ≠ reserveTokenAccount rt config := by
    -- the vault belongs to the reserve authority, which never booked an obligation
    intro heq
    rw [heq, hvault.owner] at howner
    exact h.requester index o hfound (Option.some.inj howner).symm
  have hpaid := hmoved.balance (rt.associatedTokenAddress o.requester config.reserveTokenMint
    config.reserveTokenProgram)
  have htaken := hmoved.balance (reserveTokenAccount rt config)
  rw [if_neg hne, if_pos rfl] at hpaid
  rw [if_pos rfl, if_neg hne.symm] at htaken
  exact ⟨hpaid, htaken⟩

theorem Lifecycle.of_step (h : Indexed rt s) {op : Op rt} (hstep : Solana.step rt s op = some s')
    {index : UInt64} {o' : WithdrawalObligation}
    (hget : s'.obligations.get? index = some o') :
    Lifecycle rt s s' index op (s.obligations.get? index) o' := by
  cases op with
  | external change upgradeAuthority =>
    obtain rfl := step_external hstep
    rw [hget]
    exact .kept
  | call env ix =>
    cases (step_call hstep).2 with
    | depositToReserve config_eq vault user_owner next moved booked _ amount requester pending =>
      rw [Store.get?_init booked] at hget
      split_ifs at hget with hi
      · obtain rfl := Option.some.inj hget
        rw [hi, Store.get?_eq_none.mpr (Store.init_eq_some booked).1]
        exact .booked pending
      · rw [hget]
        exact .kept
    | recordGoldcoinCompletion config_eq keySet_eq found epoch pending txid_ne height_pos =>
      rw [Store.get?_modify] at hget
      split_ifs at hget with hi
      · subst hi
        rw [found] at hget ⊢
        obtain rfl := Option.some.inj hget
        exact .completed pending (by simp) (by simp)
          (WithdrawalObligation.payoutRecord_complete _ _ _)
          ⟨txid_ne, (UInt64.pos_iff_ne_zero).mp height_pos⟩
      · rw [hget]
        exact .kept
    | refundWithdraw config_eq keySet_eq vault found epoch domain pending exact_ requester_owner
        floor signed moved =>
      rw [Store.get?_modify] at hget
      split_ifs at hget with hi
      · subst hi exact_
        obtain ⟨hpaid, htaken⟩ := h.refund_balances found vault requester_owner moved
        rw [found] at hget ⊢
        obtain rfl := Option.some.inj hget
        exact .refunded pending (by simp) (by simp) config_eq hpaid htaken
      · rw [hget]
        exact .kept
    | initializeBridge | initializeReserveVault | maintain | proposeAttestationKeyRotation
    | executeAttestationKeyRotation | cancelAttestationKeyRotation | releaseFromReserve
    | treasuryWithdraw | initializeRebalancePolicy | proposeRebalancePolicy
    | executeRebalancePolicy | cancelRebalancePolicy =>
      rw [hget]
      exact .kept

/-- No record of any kind is ever removed. -/
theorem keys_subset_of_step {op : Op rt} (hstep : step rt s op = some s') :
    s.obligations.keys ⊆ s'.obligations.keys ∧ s.claims.keys ⊆ s'.claims.keys ∧
      s.withdrawals.keys ⊆ s'.withdrawals.keys := by
  cases op with
  | external change upgradeAuthority =>
    obtain rfl := step_external hstep
    simp
  | call env ix =>
    cases (step_call hstep).2 with
    | depositToReserve _ _ _ _ _ booked => simp [Store.keys_init booked]
    | releaseFromReserve _ _ _ _ _ _ _ claimed => simp [Store.keys_init claimed]
    | treasuryWithdraw _ _ _ _ _ _ _ _ _ _ recorded => simp [Store.keys_init recorded]
    | refundWithdraw _ _ _ _ _ _ _ _ _ _ _ _ recorded => simp [Store.keys_init recorded]
    | _ => simp

/-- A record persists with its terms, and unchanged once it has left
`pending`. -/
def Persists (s s' : Chain) : Prop :=
  ∀ index o, s.obligations.get? index = some o →
    ∃ o', s'.obligations.get? index = some o' ∧ o'.terms = o.terms ∧
      (o.status ≠ .pending → o' = o)

theorem Persists.trans {s₁ s₂ s₃ : Chain} (h : Persists s₁ s₂) (h' : Persists s₂ s₃) :
    Persists s₁ s₃ := by
  intro index o ho
  obtain ⟨o₂, ho₂, hterms₂, hfinal₂⟩ := h index o ho
  obtain ⟨o₃, ho₃, hterms₃, hfinal₃⟩ := h' index o₂ ho₂
  refine ⟨o₃, ho₃, hterms₃.trans hterms₂, fun hstatus => ?_⟩
  obtain rfl := hfinal₂ hstatus
  exact hfinal₃ hstatus

theorem Persists.of_step (h : Indexed rt s) {op : Op rt}
    (hstep : Solana.step rt s op = some s') : Persists s s' := by
  intro index o ho
  have hkey : index ∈ s.obligations.keys := Store.get?_isSome.mp (by simp [ho])
  obtain ⟨o', ho'⟩ := Option.isSome_iff_exists.mp
    (Store.get?_isSome.mpr ((keys_subset_of_step hstep).1 hkey))
  have hlife := Lifecycle.of_step h hstep ho'
  rw [ho] at hlife
  cases hlife with
  | kept => exact ⟨o, ho', rfl, fun _ => rfl⟩
  | completed pending status terms => exact ⟨o', ho', terms, fun hne => absurd pending hne⟩
  | refunded pending status terms => exact ⟨o', ho', terms, fun hne => absurd pending hne⟩

theorem Persists.of_run (h : Indexed rt s) (ops : List (Op rt)) :
    Persists s (Run.final (Solana.step rt) s ops) :=
  Run.relates (Indexed rt) Persists (fun _ _ o ho => ⟨o, ho, rfl, fun _ => rfl⟩) Persists.trans
    (fun _ _ _ h => h.step) (fun _ _ _ h => Persists.of_step h) h ops

/-! ## Replay -/

/-- The Goldcoin outpoint a release spends. -/
def Op.outpoint : Op rt → Option (Bytes.Bytes32 × UInt32)
  | .call _ (.releaseFromReserve txid vout _ _ _) => some (txid, vout)
  | _ => none

/-- The nonce of a treasury withdrawal. -/
def Op.treasuryNonce : Op rt → Option UInt64
  | .call _ (.treasuryWithdraw nonce _ _ _) => some nonce
  | _ => none

/-- The nonce of a refund. -/
def Op.refundNonce : Op rt → Option UInt64
  | .call _ (.refundWithdraw nonce _ _ _) => some nonce
  | _ => none

/-- The nonce of either kind of withdrawal. -/
def Op.withdrawalNonce (op : Op rt) : Option UInt64 := op.treasuryNonce.or op.refundNonce

/-- A release needs a free claim account and takes it. -/
theorem outpoint_step {op : Op rt} (hstep : step rt s op = some s')
    {k : Bytes.Bytes32 × UInt32} (hk : op.outpoint = some k) :
    k ∉ s.claims.keys ∧ k ∈ s'.claims.keys := by
  unfold Op.outpoint at hk
  split at hk
  · obtain rfl := Option.some.inj hk
    cases (step_call hstep).2 with
    | maintain kind => simp [Instruction.maintenance] at kind
    | releaseFromReserve _ _ _ _ _ _ _ claimed =>
      exact ⟨(Store.init_eq_some claimed).1, by simp [Store.keys_init claimed]⟩
  · simp at hk

/-- A treasury withdrawal needs a free record account and takes it. Its nonce
has the high bit clear. -/
theorem treasuryNonce_step {op : Op rt} (hstep : step rt s op = some s') {nonce : UInt64}
    (hk : op.treasuryNonce = some nonce) :
    (nonce ∉ s.withdrawals.keys ∧ nonce ∈ s'.withdrawals.keys) ∧
      nonce &&& nonceDomainRefund = 0 := by
  unfold Op.treasuryNonce at hk
  split at hk
  · obtain rfl := Option.some.inj hk
    cases (step_call hstep).2 with
    | maintain kind => simp [Instruction.maintenance] at kind
    | treasuryWithdraw _ _ _ _ _ domain _ _ _ _ recorded =>
      exact ⟨⟨(Store.init_eq_some recorded).1, by simp [Store.keys_init recorded]⟩, domain⟩
  · simp at hk

/-- So does a refund, whose nonce has the high bit set. -/
theorem refundNonce_step {op : Op rt} (hstep : step rt s op = some s') {nonce : UInt64}
    (hk : op.refundNonce = some nonce) :
    (nonce ∉ s.withdrawals.keys ∧ nonce ∈ s'.withdrawals.keys) ∧
      nonce &&& nonceDomainRefund ≠ 0 := by
  unfold Op.refundNonce at hk
  split at hk
  · obtain rfl := Option.some.inj hk
    cases (step_call hstep).2 with
    | maintain kind => simp [Instruction.maintenance] at kind
    | refundWithdraw _ _ _ _ _ domain _ _ _ _ _ _ recorded =>
      exact ⟨⟨(Store.init_eq_some recorded).1, by simp [Store.keys_init recorded]⟩, domain⟩
  · simp at hk

theorem withdrawalNonce_step {op : Op rt} (hstep : step rt s op = some s') {nonce : UInt64}
    (hk : op.withdrawalNonce = some nonce) :
    nonce ∉ s.withdrawals.keys ∧ nonce ∈ s'.withdrawals.keys := by
  rcases Option.or_eq_some_iff.mp hk with htreasury | ⟨-, hrefund⟩
  · exact (treasuryNonce_step hstep htreasury).1
  · exact (refundNonce_step hstep hrefund).1

/-! ## Every run -/

/-- Over every run from a chain without the program's accounts: the obligations
are indexed densely, their terms never change, a record that has left `pending`
never changes at all, and each step touches a record in one of the listed ways.
An outpoint is released at most once, a nonce is used by at most one withdrawal,
and the two kinds of withdrawal use different nonces. -/
theorem obligation_lifecycle_of_run {s₀ : Chain} (hs₀ : Pristine s₀) (ops : List (Op rt)) :
    Indexed rt (Run.final (step rt) s₀ ops) ∧
    (∀ pre post, ops = pre ++ post →
      Persists (Run.final (step rt) s₀ pre) (Run.final (step rt) s₀ ops)) ∧
    (∀ s op s', (s, op) ∈ Run.history (step rt) s₀ ops → step rt s op = some s' →
      ∀ index o', s'.obligations.get? index = some o' →
        Lifecycle rt s s' index op (s.obligations.get? index) o') ∧
    ((Run.history (step rt) s₀ ops).filterMap fun e => e.2.outpoint).Nodup ∧
    ((Run.history (step rt) s₀ ops).filterMap fun e => e.2.withdrawalNonce).Nodup ∧
    (∀ nonce ∈ (Run.history (step rt) s₀ ops).filterMap fun e => e.2.treasuryNonce,
      nonce &&& nonceDomainRefund = 0) ∧
    (∀ nonce ∈ (Run.history (step rt) s₀ ops).filterMap fun e => e.2.refundNonce,
      nonce &&& nonceDomainRefund ≠ 0) := by
  have hinv : ∀ s (op : Op rt) s', Indexed rt s → step rt s op = some s' → Indexed rt s' :=
    fun _ _ _ h => h.step
  refine ⟨Run.invariant hinv hs₀.indexed ops, fun pre post hsplit => ?_,
    fun s op s' hmem hstep index o' hget => ?_, ?_, ?_, fun nonce hmem => ?_,
    fun nonce hmem => ?_⟩
  · rw [hsplit, Run.final_append]
    exact Persists.of_run (Run.invariant hinv hs₀.indexed pre) post
  · exact Lifecycle.of_step (Run.invariant_history hinv hs₀.indexed hmem) hstep hget
  · exact (Run.single_use (step rt) (fun _ => True) Op.outpoint (fun s k => k ∈ s.claims.keys)
      (fun _ _ _ _ _ => trivial) (fun _ _ _ _ _ hstep hk => outpoint_step hstep hk)
      (fun _ _ _ _ _ hstep hk => (keys_subset_of_step hstep).2.1 hk) trivial ops).1
  · exact (Run.single_use (step rt) (fun _ => True) Op.withdrawalNonce
      (fun s k => k ∈ s.withdrawals.keys) (fun _ _ _ _ _ => trivial)
      (fun _ _ _ _ _ hstep hk => withdrawalNonce_step hstep hk)
      (fun _ _ _ _ _ hstep hk => (keys_subset_of_step hstep).2.2 hk) trivial ops).1
  · obtain ⟨⟨s, op⟩, hentry, hnonce⟩ := List.mem_filterMap.mp hmem
    obtain ⟨_, _, s', _, _, hstep⟩ := Run.mem_history hentry
    exact (treasuryNonce_step hstep hnonce).2
  · obtain ⟨⟨s, op⟩, hentry, hnonce⟩ := List.mem_filterMap.mp hmem
    obtain ⟨_, _, s', _, _, hstep⟩ := Run.mem_history hentry
    exact (refundNonce_step hstep hnonce).2

/-- Two obligations are booked, and the first is refunded: it was pending, and the
refund paid its requester. -/
theorem obligation_lifecycle_of_run_sample : ∃ s' o',
    step sampleRuntime samplePaused sampleRefund = some s' ∧
    s'.obligations.get? 0 = some o' ∧ o'.status = .refunded ∧
    Lifecycle sampleRuntime samplePaused s' 0 sampleRefund (samplePaused.obligations.get? 0) o' ∧
    Indexed sampleRuntime s' := by
  obtain ⟨-, s', hstep, -, -, hrefunded⟩ := sampleRefund_accepted
  obtain ⟨o', hget, hstatus⟩ := Option.map_eq_some_iff.mp hrefunded
  obtain ⟨hindexed, -, hlifecycle, -⟩ := obligation_lifecycle_of_run sampleChain_pristine
    (([sampleInitialize, sampleCreateVault] ++ sampleDeposits) ++ [sampleRefund])
  have hbefore : Run.final (step sampleRuntime) sampleChain
      ([sampleInitialize, sampleCreateVault] ++ sampleDeposits) = samplePaused := by
    rw [Run.final_append, ← sampleOpened, ← samplePaused]
  have hlast : (samplePaused, sampleRefund) ∈ Run.history (step sampleRuntime) sampleChain
      (([sampleInitialize, sampleCreateVault] ++ sampleDeposits) ++ [sampleRefund]) := by
    rw [Run.history_append, hbefore, Run.history_cons_of_some hstep]
    exact List.mem_append_right _ List.mem_cons_self
  rw [Run.final_append, hbefore, Run.final_cons, Run.advance_of_some hstep, Run.final_nil]
    at hindexed
  exact ⟨s', o', hstep, hget, hstatus, hlifecycle _ _ _ hlast hstep 0 o' hget, hindexed⟩

end Solana
