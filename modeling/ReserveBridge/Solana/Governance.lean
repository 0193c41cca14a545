-- SUMMARY: Governance safety of the Solana reserve: well-formed key sets and policies in every reachable state, changes only through matured threshold-signed proposals, and rejection of stale approvals.
import ReserveBridge.Lib.Run
import ReserveBridge.Solana.Accounting

/-!
# Governance

The attestation keys and the treasury allowlist each change through a proposal
that has to be signed by a threshold of the current keys and to stay pending
for the timelock. A pending proposal is traced back to the step that made it,
and the epoch recorded in it ties that step to the key set it is executed
under.
-/

namespace Solana
open Guard Shared

variable {rt : Runtime} {s s' : Chain} {env : Env} {ix : Instruction}

/-! ## Well-formed state -/

/-- The treasuries a policy lists. -/
def RebalancePolicy.listed (policy : RebalancePolicy) : List Pubkey :=
  listedTreasuries policy.treasuryCount policy.treasuries

/-- A well-formed policy: valid entries, and defaults after them. -/
structure ValidPolicy (policy : RebalancePolicy) (reserve : Pubkey) : Prop where
  count_pos : 1 ≤ policy.treasuryCount.toNat
  count_le : policy.treasuryCount.toNat ≤ 4
  valid : ValidTreasuries policy.listed reserve
  tail : ∀ i (h : i < 4), policy.treasuryCount.toNat ≤ i → policy.treasuries[i] = Pubkey.default

theorem RebalancePolicy.listed_eq {policy : RebalancePolicy} {treasuries : List Pubkey}
    (hcount : policy.treasuryCount = UInt8.ofNat treasuries.length)
    (hpacked : policy.treasuries = packTreasuries treasuries) (hle : treasuries.length ≤ 4) :
    policy.listed = treasuries := by
  rw [listed, hcount, hpacked, listedTreasuries_packTreasuries hle]

/-- Packing a valid list gives a well-formed policy. -/
theorem ValidPolicy.of_packed {policy : RebalancePolicy} {treasuries : List Pubkey}
    {reserve : Pubkey} (h : ValidTreasuries treasuries reserve)
    (hcount : policy.treasuryCount = UInt8.ofNat treasuries.length)
    (hpacked : policy.treasuries = packTreasuries treasuries) : ValidPolicy policy reserve := by
  have hle := h.length_le
  have hpos := h.pos
  have hnat : policy.treasuryCount.toNat = treasuries.length := by
    rw [hcount, UInt8.toNat_ofNat']
    omega
  refine ⟨by omega, by omega, ?_, fun i hi htail => ?_⟩
  · rwa [RebalancePolicy.listed_eq hcount hpacked hle]
  · simp only [hpacked]
    exact packTreasuries_tail hi (by omega)

/-- Every key set and every policy in place is well formed. The policy was
made for the configured vault. -/
structure Sound (rt : Runtime) (s : Chain) : Prop where
  keySet : ∀ keySet, s.keySet = some keySet → ValidKeySet keySet.keys keySet.threshold
  policy : ∀ policy, s.policy = some policy → ∃ config, s.config = some config ∧
    config.reserveTokenMint ≠ Pubkey.default ∧ ValidPolicy policy (reserveTokenAccount rt config)

theorem Pristine.sound (h : Pristine s) : Sound rt s where
  keySet keySet hkeys := by simp [h.keySet] at hkeys
  policy policy hpolicy := by simp [h.policy] at hpolicy

/-- A configuration for the same vault keeps the policy well formed. -/
theorem Sound.reconfigure (h : Sound rt s) {config config' : BridgeConfig}
    (hconfig : s.config = some config)
    (hmint : config'.reserveTokenMint = config.reserveTokenMint)
    (hprogram : config'.reserveTokenProgram = config.reserveTokenProgram)
    {policy : RebalancePolicy} (hpolicy : s.policy = some policy) :
    config'.reserveTokenMint ≠ Pubkey.default ∧
      ValidPolicy policy (reserveTokenAccount rt config') := by
  obtain ⟨config₀, hconfig₀, hne, hvalid⟩ := h.policy policy hpolicy
  obtain rfl := Option.some.inj (hconfig.symm.trans hconfig₀)
  rw [reserveTokenAccount, hmint, hprogram]
  exact ⟨hne, hvalid⟩

theorem Sound.effect (h : Sound rt s) (heffect : Effect rt s env ix s') : Sound rt s' := by
  cases heffect with
  | initializeBridge fresh valid =>
    refine ⟨fun keySet hkeys => ?_, fun policy hpolicy => ?_⟩
    · obtain rfl := Option.some.inj hkeys
      exact valid
    · obtain ⟨config, hconfig, -⟩ := h.policy policy hpolicy
      simp [fresh.1] at hconfig
  | initializeReserveVault config_eq unconfigured =>
    refine ⟨h.keySet, fun policy hpolicy => ?_⟩
    obtain ⟨config, hconfig, hne, -⟩ := h.policy policy hpolicy
    obtain rfl := Option.some.inj (config_eq.symm.trans hconfig)
    exact absurd unconfigured hne
  | maintain kind config_eq retuned =>
    exact ⟨h.keySet, fun policy hpolicy => ⟨_, rfl, h.reconfigure config_eq
      retuned.reserveTokenMint retuned.reserveTokenProgram hpolicy⟩⟩
  | depositToReserve config_eq =>
    exact ⟨h.keySet, fun policy hpolicy => ⟨_, rfl, h.reconfigure config_eq rfl rfl hpolicy⟩⟩
  | executeAttestationKeyRotation config_eq keySet_eq pending_eq elapsed current valid =>
    refine ⟨fun keySet hkeys => ?_, h.policy⟩
    obtain rfl := Option.some.inj hkeys
    exact valid
  | initializeRebalancePolicy config_eq keySet_eq absent vault valid signed count packed =>
    refine ⟨h.keySet, fun policy hpolicy => ?_⟩
    obtain rfl := Option.some.inj hpolicy
    exact ⟨_, config_eq, vault.configured, .of_packed valid count packed⟩
  | executeRebalancePolicy config_eq keySet_eq policy_eq pending_eq elapsed current listed valid =>
    refine ⟨h.keySet, fun policy hpolicy => ?_⟩
    obtain ⟨config, hconfig, hne, -⟩ := h.policy _ policy_eq
    obtain rfl := Option.some.inj (config_eq.symm.trans hconfig)
    obtain rfl := Option.some.inj hpolicy
    exact ⟨_, config_eq, hne, .of_packed valid rfl rfl⟩
  | proposeAttestationKeyRotation | cancelAttestationKeyRotation | releaseFromReserve
  | recordGoldcoinCompletion | treasuryWithdraw | refundWithdraw | proposeRebalancePolicy
  | cancelRebalancePolicy => exact ⟨h.keySet, h.policy⟩

theorem Sound.step (h : Sound rt s) {op : Op rt} (hstep : step rt s op = some s') :
    Sound rt s' := by
  cases op with
  | call env ix => exact h.effect (step_call hstep).2
  | external change upgradeAuthority =>
    obtain rfl := step_external hstep
    exact ⟨h.keySet, h.policy⟩

/-! ## Epochs and versions -/

/-- The epoch and the policy version never fall, and while one of them stands
still, so does what it numbers. The timelock is fixed at initialization. -/
structure Advances (s s' : Chain) : Prop where
  keySet : ∀ k, s.keySet = some k → ∃ k', s'.keySet = some k' ∧
    k.epoch.toNat ≤ k'.epoch.toNat ∧ (k.epoch = k'.epoch → k' = k)
  policy : ∀ p, s.policy = some p → ∃ p', s'.policy = some p' ∧
    p.version.toNat ≤ p'.version.toNat ∧ (p.version = p'.version → p' = p)
  timelock : ∀ c, s.config = some c → ∃ c', s'.config = some c' ∧
    c'.governanceTimelockSeconds = c.governanceTimelockSeconds

theorem Advances.refl (s : Chain) : Advances s s where
  keySet k hk := ⟨k, hk, le_rfl, fun _ => rfl⟩
  policy p hp := ⟨p, hp, le_rfl, fun _ => rfl⟩
  timelock c hc := ⟨c, hc, rfl⟩

theorem Advances.trans {s₁ s₂ s₃ : Chain} (h : Advances s₁ s₂) (h' : Advances s₂ s₃) :
    Advances s₁ s₃ := by
  refine ⟨fun k hk => ?_, fun p hp => ?_, fun c hc => ?_⟩
  · obtain ⟨k₂, hk₂, hle₂, heq₂⟩ := h.keySet k hk
    obtain ⟨k₃, hk₃, hle₃, heq₃⟩ := h'.keySet k₂ hk₂
    refine ⟨k₃, hk₃, hle₂.trans hle₃, fun heq => ?_⟩
    -- equal at both ends, so equal in between
    have hends := congrArg UInt64.toNat heq
    have hsame : k.epoch = k₂.epoch := UInt64.toNat_inj.mp (by omega)
    obtain rfl := heq₂ hsame
    exact heq₃ heq
  · obtain ⟨p₂, hp₂, hle₂, heq₂⟩ := h.policy p hp
    obtain ⟨p₃, hp₃, hle₃, heq₃⟩ := h'.policy p₂ hp₂
    refine ⟨p₃, hp₃, hle₂.trans hle₃, fun heq => ?_⟩
    have hends := congrArg UInt64.toNat heq
    have hsame : p.version = p₂.version := UInt64.toNat_inj.mp (by omega)
    obtain rfl := heq₂ hsame
    exact heq₃ heq
  · obtain ⟨c₂, hc₂, heq₂⟩ := h.timelock c hc
    obtain ⟨c₃, hc₃, heq₃⟩ := h'.timelock c₂ hc₂
    exact ⟨c₃, hc₃, heq₃.trans heq₂⟩

theorem Advances.of_effect (heffect : Effect rt s env ix s') : Advances s s' := by
  have hrefl := Advances.refl s
  cases heffect with
  | initializeBridge fresh =>
    refine ⟨fun k hk => ?_, hrefl.policy, fun c hc => ?_⟩
    · simp [fresh.2] at hk
    · simp [fresh.1] at hc
  | initializeReserveVault config_eq =>
    refine ⟨hrefl.keySet, hrefl.policy, fun c hc => ?_⟩
    obtain rfl := Option.some.inj (config_eq.symm.trans hc)
    exact ⟨_, rfl, rfl⟩
  | maintain kind config_eq retuned =>
    refine ⟨hrefl.keySet, hrefl.policy, fun c hc => ?_⟩
    obtain rfl := Option.some.inj (config_eq.symm.trans hc)
    exact ⟨_, rfl, retuned.governanceTimelockSeconds⟩
  | depositToReserve config_eq =>
    refine ⟨hrefl.keySet, hrefl.policy, fun c hc => ?_⟩
    obtain rfl := Option.some.inj (config_eq.symm.trans hc)
    exact ⟨_, rfl, rfl⟩
  | executeAttestationKeyRotation config_eq keySet_eq pending_eq elapsed current valid bumped =>
    refine ⟨fun k hk => ?_, hrefl.policy, hrefl.timelock⟩
    obtain rfl := Option.some.inj (keySet_eq.symm.trans hk)
    refine ⟨_, rfl, by simp only; omega, fun heq => ?_⟩
    simp only at heq
    rw [← heq] at bumped
    omega
  | initializeRebalancePolicy config_eq keySet_eq absent =>
    exact ⟨hrefl.keySet, fun p hp => by simp [absent] at hp, hrefl.timelock⟩
  | executeRebalancePolicy config_eq keySet_eq policy_eq pending_eq elapsed current listed valid
      bumped =>
    refine ⟨hrefl.keySet, fun p hp => ?_, hrefl.timelock⟩
    obtain rfl := Option.some.inj (policy_eq.symm.trans hp)
    refine ⟨_, rfl, by simp only; omega, fun heq => ?_⟩
    simp only at heq
    rw [← heq] at bumped
    omega
  | proposeAttestationKeyRotation | cancelAttestationKeyRotation | releaseFromReserve
  | recordGoldcoinCompletion | treasuryWithdraw | refundWithdraw | proposeRebalancePolicy
  | cancelRebalancePolicy => exact ⟨hrefl.keySet, hrefl.policy, hrefl.timelock⟩

theorem Advances.of_run (s : Chain) (ops : List (Op rt)) :
    Advances s (Run.final (step rt) s ops) := by
  refine Run.relates (fun _ => True) Advances Advances.refl Advances.trans
    (fun _ _ _ _ _ => trivial) (fun s op s' _ hstep => ?_) trivial ops
  cases op with
  | call env ix => exact Advances.of_effect (step_call hstep).2
  | external change upgradeAuthority =>
    obtain rfl := step_external hstep
    have hrefl := Advances.refl s
    exact ⟨hrefl.keySet, hrefl.policy, hrefl.timelock⟩

/-! ## Proposals -/

/-- Before an execution in `env` at the end of `pre`, some step of the run made
the proposal under the key set `k`: the runtime let it through, it carried a
threshold of approvals by `k` over exactly the message, and the timelock that
was and still is in force has passed since. -/
def Matured (rt : Runtime) (s₀ : Chain) (pre : List (Op rt)) (env : Env)
    (k : AttestationKeySet) (proposal : Instruction)
    (message : BridgeConfig → AttestationKeySet → List UInt8) : Prop :=
  ∃ earlier mid proposer config, pre = earlier ++ .call proposer proposal :: mid ∧
    (step rt (Run.final (step rt) s₀ earlier) (.call proposer proposal)).isSome ∧
    (Run.final (step rt) s₀ earlier).keySet = some k ∧
    (Run.final (step rt) s₀ earlier).config = some config ∧
    Admissible rt proposer ∧ Approved rt proposer k (message config k) ∧
    proposer.unixTimestamp.toInt + config.governanceTimelockSeconds.toInt ≤
      env.unixTimestamp.toInt ∧
    ∀ config', (Run.final (step rt) s₀ pre).config = some config' →
      config'.governanceTimelockSeconds = config.governanceTimelockSeconds

/-- A proposal made under the epoch still in force was made under the same key
set and timelock. -/
theorem Matured.intro {s₀ : Chain} {pre earlier mid : List (Op rt)} {env proposer : Env}
    {k k₀ : AttestationKeySet} {proposal : Instruction}
    {message : BridgeConfig → AttestationKeySet → List UInt8} {config : BridgeConfig}
    (hpre : pre = earlier ++ .call proposer proposal :: mid)
    (hstep : step rt (Run.final (step rt) s₀ earlier) (.call proposer proposal) = some s)
    (hk₀ : (Run.final (step rt) s₀ earlier).keySet = some k₀)
    (hk : (Run.final (step rt) s₀ pre).keySet = some k) (hepoch : k.epoch = k₀.epoch)
    (hconfig : (Run.final (step rt) s₀ earlier).config = some config)
    (happroved : Approved rt proposer k₀ (message config k₀))
    (hwait : proposer.unixTimestamp.toInt + config.governanceTimelockSeconds.toInt ≤
      env.unixTimestamp.toInt) : Matured rt s₀ pre env k proposal message := by
  have hadvances : Advances (Run.final (step rt) s₀ earlier) (Run.final (step rt) s₀ pre) := by
    rw [hpre, Run.final_append]
    exact Advances.of_run _ _
  -- epochs only grow, and an unchanged epoch means an unchanged key set
  obtain ⟨k', hk', -, hsame⟩ := hadvances.keySet k₀ hk₀
  obtain rfl := Option.some.inj (hk'.symm.trans hk)
  obtain rfl := hsame hepoch.symm
  obtain ⟨config₁, hconfig₁, htimelock⟩ := hadvances.timelock config hconfig
  refine ⟨earlier, mid, proposer, config, hpre, by simp [hstep], hk₀, hconfig,
    (step_call hstep).1, happroved, hwait, fun config' hconfig' => ?_⟩
  obtain rfl := Option.some.inj (hconfig₁.symm.trans hconfig')
  exact htimelock

/-- A pending rotation appears only by being proposed. -/
theorem proposeRotation_of_rise {op : Op rt} {p : PendingGovernanceAction}
    (hstep : step rt s op = some s') (hbefore : s.pendingAction ≠ some p)
    (hafter : s'.pendingAction = some p) :
    ∃ proposer config k, op = .call proposer (.proposeAttestationKeyRotation p.keys p.threshold) ∧
      s.config = some config ∧ s.keySet = some k ∧ p.proposedUnderEpoch = k.epoch ∧
      p.eta.toInt = proposer.unixTimestamp.toInt + config.governanceTimelockSeconds.toInt ∧
      Approved rt proposer k (proposeRotationMessage rt config k p.keys p.threshold) := by
  cases op with
  | external change upgradeAuthority =>
    obtain rfl := step_external hstep
    exact absurd hafter hbefore
  | call proposer ix =>
    cases (step_call hstep).2 with
    | proposeAttestationKeyRotation config_eq keySet_eq idle valid signed epoch eta threshold
        keys =>
      obtain rfl := Option.some.inj hafter
      subst threshold keys
      exact ⟨proposer, _, _, rfl, config_eq, keySet_eq, epoch, eta, signed⟩
    | executeAttestationKeyRotation | cancelAttestationKeyRotation => simp at hafter
    | _ => exact absurd hafter hbefore

/-- A pending policy appears only by being proposed. -/
theorem proposePolicy_of_rise {op : Op rt} {p : PendingRebalancePolicy}
    (hstep : step rt s op = some s') (hbefore : s.pendingPolicy ≠ some p)
    (hafter : s'.pendingPolicy = some p) :
    ∃ proposer config k, op = .call proposer (.proposeRebalancePolicy
        (listedTreasuries p.treasuryCount p.treasuries)) ∧
      s.config = some config ∧ s.keySet = some k ∧ p.proposedUnderEpoch = k.epoch ∧
      p.eta.toInt = proposer.unixTimestamp.toInt + config.governanceTimelockSeconds.toInt ∧
      Approved rt proposer k (policyMessage rt config k actionProposeRebalancePolicy
        (listedTreasuries p.treasuryCount p.treasuries)) := by
  cases op with
  | external change upgradeAuthority =>
    obtain rfl := step_external hstep
    exact absurd hafter hbefore
  | call proposer ix =>
    cases (step_call hstep).2 with
    | proposeRebalancePolicy config_eq keySet_eq policy_eq idle valid signed epoch eta count
        packed =>
      obtain rfl := Option.some.inj hafter
      rw [count, packed, listedTreasuries_packTreasuries valid.length_le]
      exact ⟨proposer, _, _, rfl, config_eq, keySet_eq, epoch, eta, signed⟩
    | executeRebalancePolicy | cancelRebalancePolicy => simp at hafter
    | _ => exact absurd hafter hbefore

/-- What a step may do to the key set: nothing, or execute a matured rotation,
which raises the epoch by one. -/
theorem keySet_step {s₀ : Chain} (hs₀ : Pristine s₀) {pre : List (Op rt)} {op : Op rt}
    (hstep : step rt (Run.final (step rt) s₀ pre) op = some s') {k : AttestationKeySet}
    (hk : (Run.final (step rt) s₀ pre).keySet = some k) :
    s'.keySet = some k ∨
    ∃ k' env, op = .call env .executeAttestationKeyRotation ∧ s'.keySet = some k' ∧
      k'.epoch.toNat = k.epoch.toNat + 1 ∧
      Matured rt s₀ pre env k (.proposeAttestationKeyRotation k'.keys k'.threshold)
        (fun config k => proposeRotationMessage rt config k k'.keys k'.threshold) := by
  cases op with
  | external change upgradeAuthority =>
    obtain rfl := step_external hstep
    exact .inl hk
  | call env ix =>
    cases (step_call hstep).2 with
    | initializeBridge fresh => simp [hk] at fresh
    | @executeAttestationKeyRotation config keySet pending epoch config_eq keySet_eq pending_eq
        elapsed current valid bumped =>
      obtain rfl := Option.some.inj (keySet_eq.symm.trans hk)
      refine .inr ⟨_, env, rfl, rfl, bumped, ?_⟩
      obtain ⟨earlier, a, mid, s₁, hpre, ha, hbefore, hsince⟩ :=
        Run.last_rise (P := fun s : Chain => s.pendingAction = some pending)
          (by simp [hs₀.pendingAction]) pending_eq
      obtain ⟨proposer, config₀, k₀, rfl, hconfig₀, hk₀, hepoch, heta, hsigned⟩ :=
        proposeRotation_of_rise ha hbefore (hsince [] List.nil_prefix)
      exact Matured.intro hpre ha hk₀ hk (current.trans hepoch) hconfig₀ hsigned (by omega)
    | _ => exact .inl hk

/-- What a step may do to the policy: nothing, or execute a matured proposal,
which raises the version by one. -/
theorem policy_step {s₀ : Chain} (hs₀ : Pristine s₀) {pre : List (Op rt)} {op : Op rt}
    (hstep : step rt (Run.final (step rt) s₀ pre) op = some s') {p : RebalancePolicy}
    (hp : (Run.final (step rt) s₀ pre).policy = some p) :
    s'.policy = some p ∨
    ∃ p' env k, op = .call env .executeRebalancePolicy ∧ s'.policy = some p' ∧
      p'.version.toNat = p.version.toNat + 1 ∧
      (Run.final (step rt) s₀ pre).keySet = some k ∧
      Matured rt s₀ pre env k (.proposeRebalancePolicy p'.listed)
        (fun config k => policyMessage rt config k actionProposeRebalancePolicy p'.listed) := by
  cases op with
  | external change upgradeAuthority =>
    obtain rfl := step_external hstep
    exact .inl hp
  | call env ix =>
    cases (step_call hstep).2 with
    | initializeRebalancePolicy config_eq keySet_eq absent => simp [hp] at absent
    | @executeRebalancePolicy config keySet policy pending treasuries version config_eq keySet_eq
        policy_eq pending_eq elapsed current listed valid bumped =>
      obtain rfl := Option.some.inj (policy_eq.symm.trans hp)
      refine .inr ⟨_, env, keySet, rfl, rfl, bumped, keySet_eq, ?_⟩
      rw [RebalancePolicy.listed_eq rfl rfl valid.length_le, listed]
      obtain ⟨earlier, a, mid, s₁, hpre, ha, hbefore, hsince⟩ :=
        Run.last_rise (P := fun s : Chain => s.pendingPolicy = some pending)
          (by simp [hs₀.pendingPolicy]) pending_eq
      obtain ⟨proposer, config₀, k₀, rfl, hconfig₀, hk₀, hepoch, heta, hsigned⟩ :=
        proposePolicy_of_rise ha hbefore (hsince [] List.nil_prefix)
      exact Matured.intro hpre ha hk₀ keySet_eq (current.trans hepoch) hconfig₀ hsigned (by omega)
    | _ => exact .inl hp

/-! ## Stale approvals -/

/-- The instructions that verify signatures. -/
def Instruction.signed : Instruction → Bool
  | .releaseFromReserve .. | .recordGoldcoinCompletion .. | .treasuryWithdraw ..
  | .refundWithdraw .. | .proposeAttestationKeyRotation .. | .cancelAttestationKeyRotation
  | .initializeRebalancePolicy .. | .proposeRebalancePolicy .. | .cancelRebalancePolicy => true
  | _ => false

/-- The policy version a treasury claim is bound to. -/
def policyVersion : Message → Option UInt64
  | .treasuryWithdraw _ _ _ _ _ _ _ _ version => some version
  | _ => none

/-- The instruction before this one carries a signature entry over `m`. -/
def Presents (env : Env) (m : Message) : Prop :=
  ∃ program data i key signature, env.previous = some (program, data) ∧
    i < (data.getD 0 0).toNat ∧ Designates data i key signature m.bytes

/-- An approved message is the only one presented. -/
theorem Approved.message_eq {keySet : AttestationKeySet} {m m' : Message}
    (h : Approved rt env keySet m.bytes) (hpresents : Presents env m') : m' = m := by
  obtain ⟨data, signers, hprevious, hentries, -, hcounted⟩ := h
  obtain ⟨program, data', i, key, signature, hprevious', hi, hdesignates⟩ := hpresents
  obtain ⟨-, rfl⟩ := Prod.mk.inj (Option.some.inj (hprevious.symm.trans hprevious'))
  obtain ⟨signature', hcounted'⟩ := hcounted.designated i (hentries ▸ hi)
  exact Message.bytes_injective (hdesignates.message_eq hcounted')

/-- A signed instruction is approved over a message of the current epoch. A
treasury claim among them is bound to the current policy version. -/
theorem Effect.approved (heffect : Effect rt s env ix s') (hsigned : ix.signed = true) :
    ∃ k m, s.keySet = some k ∧ Approved rt env k (Message.bytes m) ∧ m.epoch = k.epoch ∧
      ∀ version, policyVersion m = some version →
        ∃ p, s.policy = some p ∧ version = p.version := by
  cases heffect with
  | maintain kind => cases ix <;> simp [Instruction.maintenance, Instruction.signed] at kind hsigned
  | initializeBridge | initializeReserveVault | depositToReserve | executeAttestationKeyRotation
  | executeRebalancePolicy => simp [Instruction.signed] at hsigned
  | releaseFromReserve config_eq keySet_eq vault epoch floor signed =>
    exact ⟨_, .release _ _ _ _ _ _ _ _, keySet_eq, signed, rfl, by simp [policyVersion]⟩
  | recordGoldcoinCompletion config_eq keySet_eq found epoch pending txid_ne height_pos signed =>
    exact ⟨_, .completion _ _ _ _ _ _ _ _, keySet_eq, signed, rfl, by simp [policyVersion]⟩
  | treasuryWithdraw config_eq keySet_eq policy_eq vault epoch domain away floor signed =>
    refine ⟨_, .treasuryWithdraw _ _ _ _ _ _ _ _ _, keySet_eq, signed, rfl, fun version h => ?_⟩
    exact ⟨_, policy_eq, (Option.some.inj h).symm⟩
  | refundWithdraw config_eq keySet_eq vault found epoch domain pending exact_ requester_owner
      floor signed =>
    exact ⟨_, .refundWithdraw _ _ _ _ _ _ _ _ _ _, keySet_eq, signed, rfl,
      by simp [policyVersion]⟩
  | proposeAttestationKeyRotation config_eq keySet_eq idle valid signed
  | cancelAttestationKeyRotation config_eq keySet_eq pending_eq signed
  | initializeRebalancePolicy config_eq keySet_eq absent vault valid signed
  | proposeRebalancePolicy config_eq keySet_eq policy_eq idle valid signed
  | cancelRebalancePolicy config_eq keySet_eq pending_eq signed =>
    exact ⟨_, .governance _ _ _ _ _, keySet_eq, signed, rfl, by simp [policyVersion]⟩

/-- A signed instruction is refused when what it presents is bound to an epoch
or a policy version that is not the current one. -/
theorem step_stale_eq_none {m : Message} (hsigned : ix.signed = true) (hpresents : Presents env m)
    (hstale : (∀ k, s.keySet = some k → m.epoch ≠ k.epoch) ∨
      ∃ version, policyVersion m = some version ∧
        ∀ p, s.policy = some p → version ≠ p.version) :
    step rt s (.call env ix) = none := by
  cases hstep : step rt s (.call env ix) with
  | none => rfl
  | some s' =>
    obtain ⟨k, m', hk, happroved, hepoch, hversion⟩ := (step_call hstep).2.approved hsigned
    obtain rfl := happroved.message_eq hpresents
    rcases hstale with hstale | ⟨version, hv, hstale⟩
    · exact absurd hepoch (hstale k hk)
    · obtain ⟨p, hp, heq⟩ := hversion version hv
      exact absurd heq (hstale p hp)

/-! ## A sample rotation -/

/-- A proof built off chain by a threshold of the keys is an approval. -/
theorem requireThresholdApproval_of_proof {keySet : AttestationKeySet} {message : List UInt8}
    {signatures : List (Pubkey × Service.Signature)}
    (hprevious : env.previous = some (rt.ed25519Program,
      (Service.buildAttestationProof rt.ed25519Program signatures message).data))
    (hpos : 1 ≤ signatures.length) (hle : signatures.length ≤ 8)
    (hnodup : (signatures.map Prod.fst).Nodup) (hmem : ∀ pair ∈ signatures, pair.1 ∈ keySet.keys)
    (hkeys : keySet.keys.length ≤ 16) (hmsg : message.length < 2 ^ 16)
    (hthreshold : keySet.threshold.toNat ≤ signatures.length) :
    requireThresholdApproval rt env keySet message = .ok () := by
  have hcount : countUniqueAttestationSigners (Service.buildAttestationProof rt.ed25519Program
      signatures message).data message keySet.keys = .ok signatures.length :=
    Service.countUniqueAttestationSigners_buildAttestationProof hpos hle hnodup hmem hkeys hmsg
  simp only [requireThresholdApproval, verificationInstruction, requireSigners, bind_eq_ok,
    orFail_eq_ok, require_eq_ok, pure_eq_ok, exists_unit]
  exact ⟨_, ⟨_, hprevious, rfl, rfl⟩, _, hcount, hthreshold⟩

def sampleConfig : BridgeConfig where
  protocolVersion := protocolVersion
  admin := sampleKey 2
  pendingAdmin := none
  paused := false
  releasePaused := false
  depositPaused := false
  bump := 255
  reserveTokenMint := Pubkey.default
  reserveTokenProgram := Pubkey.default
  reserveAuthorityBump := 0
  obligationCount := 0
  governanceTimelockSeconds := 100
  minTransferAmount := 1
  perTransferLimit := 500
  protectedMinimum := 10
  rollingVolumeLimit := 500
  rollingWindowSeconds := 1000
  upgradeTimelockSeconds := 100

def sampleKeySet : AttestationKeySet where
  epoch := 0
  threshold := 2
  bump := 255
  keys := [sampleKey 11, sampleKey 12, sampleKey 13]
  reserved := zeroPadded 32 []

/-- The sample chain after initialization. -/
def sampleInitialized : Chain :=
  { sampleChain with
    config := some sampleConfig
    keySet := some sampleKeySet
    releaseWindow := some ⟨.goldcoinToSolana, 0, 0, 255, zeroPadded 16 []⟩
    depositWindow := some ⟨.solanaToGoldcoin, 0, 0, 255, zeroPadded 16 []⟩ }

theorem sampleInitialize_accepted :
    step sampleRuntime sampleChain sampleInitialize = some sampleInitialized := rfl

theorem sampleSigned_approved (now : Int64) (v action : UInt8) (epoch : UInt64)
    (params : Bytes.Bytes32) :
    requireThresholdApproval sampleRuntime
      (sampleSigned now (governanceMessage v sampleRuntime.programId epoch action params))
      sampleKeySet (governanceMessage v sampleRuntime.programId epoch action params) = .ok () :=
  requireThresholdApproval_of_proof rfl (by decide) (by decide) (by decide) (by decide)
    (by decide) (by rw [Message.length_governanceMessage]; decide) (by decide)

theorem sampleSigned_admissible (now : Int64) (message : List UInt8) :
    Admissible sampleRuntime (sampleSigned now message) :=
  ⟨by simp only [sampleSigned]; decide, fun _ _ => rfl⟩

def sampleNewKeys : List Pubkey := [sampleKey 21, sampleKey 22]

/-- At time 10, a threshold proposes two new keys. -/
def samplePropose : Op sampleRuntime :=
  .call (sampleSigned 10 (proposeRotationMessage sampleRuntime sampleConfig sampleKeySet
    sampleNewKeys 2)) (.proposeAttestationKeyRotation sampleNewKeys 2)

def sampleProposed : Chain :=
  { sampleInitialized with
    pendingAction := some ⟨actionProposeRotation, 0, 110, 2, sampleNewKeys, 255,
      zeroPadded 24 []⟩ }

theorem samplePropose_accepted :
    step sampleRuntime sampleInitialized samplePropose = some sampleProposed := by
  rw [samplePropose, step, if_pos (sampleSigned_admissible _ _), toOption_eq_some]
  simp only [exec, proposeAttestationKeyRotation, bind_eq_ok, orFail_eq_ok, vacant_eq_ok,
    pure_eq_ok, exists_unit]
  exact ⟨sampleConfig, rfl, sampleKeySet, rfl, rfl, rfl, sampleSigned_approved _ _ _ _ _, 110,
    rfl, rfl⟩

/-- At time 110, anybody executes the rotation. -/
def sampleExecute : Op sampleRuntime := .call (sampleEnv 4 110) .executeAttestationKeyRotation

def sampleRotated : Chain :=
  { sampleInitialized with keySet := some { sampleKeySet with epoch := 1, keys := sampleNewKeys } }

theorem sampleExecute_accepted :
    step sampleRuntime sampleProposed sampleExecute = some sampleRotated := rfl

/-! ## Every run -/

/-- Over every run from a chain without the program's accounts: the key set and
the policy are well formed, each changes only by executing a proposal that has
matured under the very key set in force, epoch and version number the changes,
and what was signed for another epoch or policy version is refused. -/
theorem governance_safety_of_run {s₀ : Chain} (hs₀ : Pristine s₀) (ops : List (Op rt)) :
    Sound rt (Run.final (step rt) s₀ ops) ∧
    (∀ pre op post s', ops = pre ++ op :: post →
      step rt (Run.final (step rt) s₀ pre) op = some s' →
      (∀ k, (Run.final (step rt) s₀ pre).keySet = some k →
        s'.keySet = some k ∨
        ∃ k' env, op = .call env .executeAttestationKeyRotation ∧ s'.keySet = some k' ∧
          k'.epoch.toNat = k.epoch.toNat + 1 ∧
          Matured rt s₀ pre env k (.proposeAttestationKeyRotation k'.keys k'.threshold)
            (fun config k => proposeRotationMessage rt config k k'.keys k'.threshold)) ∧
      (∀ p, (Run.final (step rt) s₀ pre).policy = some p →
        s'.policy = some p ∨
        ∃ p' env k, op = .call env .executeRebalancePolicy ∧ s'.policy = some p' ∧
          p'.version.toNat = p.version.toNat + 1 ∧
          (Run.final (step rt) s₀ pre).keySet = some k ∧
          Matured rt s₀ pre env k (.proposeRebalancePolicy p'.listed)
            (fun config k => policyMessage rt config k actionProposeRebalancePolicy
              p'.listed))) ∧
    (∀ pre post, ops = pre ++ post →
      Advances (Run.final (step rt) s₀ pre) (Run.final (step rt) s₀ ops)) ∧
    (∀ env ix m, ix.signed = true → Presents env m →
      ((∀ k, (Run.final (step rt) s₀ ops).keySet = some k → m.epoch ≠ k.epoch) ∨
        ∃ version, policyVersion m = some version ∧
          ∀ p, (Run.final (step rt) s₀ ops).policy = some p → version ≠ p.version) →
      step rt (Run.final (step rt) s₀ ops) (.call env ix) = none) := by
  refine ⟨Run.invariant (fun _ _ _ h => h.step) hs₀.sound ops, ?_, ?_, ?_⟩
  · intro pre op post s' _ hstep
    exact ⟨fun k hk => keySet_step hs₀ hstep hk, fun p hp => policy_step hs₀ hstep hp⟩
  · intro pre post hsplit
    rw [hsplit, Run.final_append]
    exact Advances.of_run _ _
  · intro env ix m hsigned hpresents hstale
    exact step_stale_eq_none hsigned hpresents hstale

/-- The sample rotation is executed 100 seconds after it was proposed. -/
theorem governance_safety_of_run_sample :
    Matured sampleRuntime sampleChain [sampleInitialize, samplePropose] (sampleEnv 4 110)
      sampleKeySet (.proposeAttestationKeyRotation sampleNewKeys 2)
      (fun config k => proposeRotationMessage sampleRuntime config k sampleNewKeys 2) := by
  have hpre : Run.final (step sampleRuntime) sampleChain [sampleInitialize, samplePropose] =
      sampleProposed := by
    rw [Run.final_cons, Run.advance_of_some sampleInitialize_accepted, Run.final_cons,
      Run.advance_of_some samplePropose_accepted, Run.final_nil]
  have hsafe := (governance_safety_of_run sampleChain_pristine
    [sampleInitialize, samplePropose, sampleExecute]).2.1 [sampleInitialize, samplePropose]
    sampleExecute [] sampleRotated rfl (by rw [hpre]; exact sampleExecute_accepted)
  rcases hsafe.1 sampleKeySet (by rw [hpre]; rfl) with hsame | ⟨k', env, hop, hk', -, hmatured⟩
  · have hepoch := congrArg AttestationKeySet.epoch (Option.some.inj hsame)
    exact absurd hepoch (by decide)
  · obtain ⟨rfl, -⟩ := Op.call.inj hop
    obtain rfl := Option.some.inj hk'
    exact hmatured

end Solana
