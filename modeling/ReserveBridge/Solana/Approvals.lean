-- SUMMARY: Reuse of governance approvals on Solana: a signed proposal is accepted again in the same epoch as soon as its slot is free, and is single-use in every run that presents no approval a second time then.
import ReserveBridge.Lib.Run
import ReserveBridge.Solana.Governance

/-!
# Governance approvals

A proposal's message binds the epoch, the action and a commitment to the
parameters. Nothing in it or in the state that survives a cancellation or an
execution tells a second use from the first. What stands between the two uses
is only the account of the pending proposal, which the first use fills until it
is closed.
-/

namespace Solana
open Bytes Guard Shared

variable {rt : Runtime} {s s' t t' : Chain} {env env' : Env}

/-! ## Approvals -/

/-- The two governance tracks. Each has one account for what is pending. -/
inductive Track
  | rotation
  | policy

namespace Track

/-- The action byte of the message that proposes. -/
def action : Track → UInt8
  | rotation => actionProposeRotation
  | policy => actionProposeRebalancePolicy

theorem action_injective : Function.Injective action := by
  intro x y h
  cases x <;> cases y <;> first | rfl | exact absurd h (by decide)

/-- A proposal of the track is pending. -/
def Occupied (s : Chain) : Track → Prop
  | rotation => s.pendingAction ≠ none
  | policy => s.pendingPolicy ≠ none

end Track

/-- The epoch of the key set in force. -/
def Chain.epoch (s : Chain) : Option UInt64 := s.keySet.map AttestationKeySet.epoch

/-- The signatures a proposal is presented with, and its track. -/
def presented : Op rt → Option (Track × Option (Pubkey × List UInt8))
  | .call env (.proposeAttestationKeyRotation ..) => some (.rotation, env.previous)
  | .call env (.proposeRebalancePolicy ..) => some (.policy, env.previous)
  | _ => none

/-- The approval a proposal is submitted with: the message, and the instruction
that carries the signatures over it. -/
def approval (rt : Runtime) : Chain × Op rt → Option (List UInt8 × Option (Pubkey × List UInt8))
  | (s, .call env (.proposeAttestationKeyRotation keys threshold)) =>
    s.config.bind fun config => s.keySet.map fun k =>
      (proposeRotationMessage rt config k keys threshold, env.previous)
  | (s, .call env (.proposeRebalancePolicy treasuries)) =>
    s.config.bind fun config => s.keySet.map fun k =>
      (policyMessage rt config k actionProposeRebalancePolicy treasuries, env.previous)
  | _ => none

/-- What an accepted proposal says of its approval: the slot was free, and the
message is the track's in the epoch in force. -/
theorem approval_step {op : Op rt} (hstep : step rt s op = some s')
    {a : List UInt8 × Option (Pubkey × List UInt8)} (ha : approval rt (s, op) = some a) :
    ∃ track k version params, presented op = some (track, a.2) ∧ ¬ track.Occupied s ∧
      s.keySet = some k ∧
      a.1 = Message.bytes (.governance version rt.programId k.epoch track.action params) := by
  unfold approval at ha
  split at ha
  next _ env keys threshold heq =>
    obtain ⟨rfl, rfl⟩ := Prod.mk.inj heq
    cases (step_call hstep).2 with
    | maintain kind => simp [Instruction.maintenance] at kind
    | proposeAttestationKeyRotation config_eq keySet_eq idle =>
      simp only [config_eq, keySet_eq, Option.bind_some, Option.map_some, Option.some.injEq] at ha
      subst ha
      exact ⟨.rotation, _, _, _, rfl, not_not_intro idle, keySet_eq, rfl⟩
  next _ env treasuries heq =>
    obtain ⟨rfl, rfl⟩ := Prod.mk.inj heq
    cases (step_call hstep).2 with
    | maintain kind => simp [Instruction.maintenance] at kind
    | proposeRebalancePolicy config_eq keySet_eq policy_eq idle =>
      simp only [config_eq, keySet_eq, Option.bind_some, Option.map_some, Option.some.injEq] at ha
      subst ha
      exact ⟨.policy, _, _, _, rfl, not_not_intro idle, keySet_eq, rfl⟩
  next => simp at ha

/-! ## Presented once -/

/-- An approval that has made a proposal is presented again only while the slot
of its track is occupied or after the epoch has advanced. -/
def RepeatsBarred (rt : Runtime) (s₀ : Chain) (ops : List (Op rt)) : Prop :=
  ∀ pre op post, ops = pre ++ op :: post →
    ∀ track previous, presented op = some (track, previous) →
      ∀ e ∈ Run.history (step rt) s₀ pre, presented e.2 = some (track, previous) →
        track.Occupied (Run.final (step rt) s₀ pre) ∨
          (Run.final (step rt) s₀ pre).epoch ≠ e.1.epoch

/-- Where repetitions are barred, no approval makes a second proposal. -/
theorem RepeatsBarred.nodup {s₀ : Chain} {ops : List (Op rt)} (h : RepeatsBarred rt s₀ ops) :
    ((Run.history (step rt) s₀ ops).filterMap (approval rt)).Nodup := by
  refine Run.nodup_history (step rt) fun pre op post s' a hops hstep ha hmem => ?_
  obtain ⟨⟨t, op₁⟩, he, ha₁⟩ := List.mem_filterMap.mp hmem
  obtain ⟨_, _, _, _, _, hstep₁⟩ := Run.mem_history he
  obtain ⟨track, k, version, params, hpresented, hfree, hk, hmessage⟩ := approval_step hstep ha
  obtain ⟨track₁, k₁, version₁, params₁, hpresented₁, -, hk₁, hmessage₁⟩ :=
    approval_step hstep₁ ha₁
  -- one message, so one track and one epoch
  have hsame := Message.bytes_injective (hmessage.symm.trans hmessage₁)
  simp only [Message.governance.injEq] at hsame
  obtain ⟨-, -, hepoch, haction, -⟩ := hsame
  obtain rfl := Track.action_injective haction
  rcases h pre op post hops _ _ hpresented _ he hpresented₁ with hoccupied | hadvanced
  · exact hfree hoccupied
  · exact hadvanced (by simp only [Chain.epoch, hk, hk₁, Option.map_some, hepoch])

/-! ## Presented again -/

/-- Of a configuration, what the checks of a proposal read besides the timelock
stays once it is set. -/
def Settled (s s' : Chain) : Prop :=
  ∀ c, s.config = some c → ∃ c', s'.config = some c' ∧
    c'.protocolVersion = c.protocolVersion ∧
    (c.reserveTokenMint ≠ Pubkey.default → c'.reserveTokenMint = c.reserveTokenMint ∧
      c'.reserveTokenProgram = c.reserveTokenProgram)

theorem Settled.refl (s : Chain) : Settled s s :=
  fun c hc => ⟨c, hc, rfl, fun _ => ⟨rfl, rfl⟩⟩

theorem Settled.trans {s₁ s₂ s₃ : Chain} (h : Settled s₁ s₂) (h' : Settled s₂ s₃) :
    Settled s₁ s₃ := by
  intro c hc
  obtain ⟨c₂, hc₂, hversion₂, hvault₂⟩ := h c hc
  obtain ⟨c₃, hc₃, hversion₃, hvault₃⟩ := h' c₂ hc₂
  refine ⟨c₃, hc₃, hversion₃.trans hversion₂, fun hne => ?_⟩
  obtain ⟨hmint₂, hprogram₂⟩ := hvault₂ hne
  obtain ⟨hmint₃, hprogram₃⟩ := hvault₃ (hmint₂ ▸ hne)
  exact ⟨hmint₃.trans hmint₂, hprogram₃.trans hprogram₂⟩

theorem Settled.step {op : Op rt} (hstep : step rt s op = some s') : Settled s s' := by
  cases op with
  | external change upgradeAuthority =>
    obtain rfl := step_external hstep
    exact Settled.refl s
  | call env ix =>
    cases (step_call hstep).2 with
    | initializeBridge fresh =>
      intro c hc
      simp [fresh.1] at hc
    | initializeReserveVault config_eq unconfigured =>
      intro c hc
      obtain rfl := Option.some.inj (config_eq.symm.trans hc)
      exact ⟨_, rfl, rfl, fun hne => absurd unconfigured hne⟩
    | maintain kind config_eq retuned =>
      intro c hc
      obtain rfl := Option.some.inj (config_eq.symm.trans hc)
      exact ⟨_, rfl, retuned.protocolVersion,
        fun _ => ⟨retuned.reserveTokenMint, retuned.reserveTokenProgram⟩⟩
    | depositToReserve config_eq =>
      intro c hc
      obtain rfl := Option.some.inj (config_eq.symm.trans hc)
      exact ⟨_, rfl, rfl, fun _ => ⟨rfl, rfl⟩⟩
    | _ => exact Settled.refl s

/-- The same epoch later in a run is the same key set. -/
theorem Advances.keySet_of_epoch (h : Advances t s) {k : AttestationKeySet}
    (hk : t.keySet = some k) (hepoch : s.epoch = t.epoch) : s.keySet = some k := by
  obtain ⟨k', hk', -, hsame⟩ := h.keySet k hk
  simp only [Chain.epoch, hk, hk', Option.map_some, Option.some.injEq] at hepoch
  rw [hk', hsame hepoch.symm]

theorem requireThresholdApproval_congr (h : env'.previous = env.previous)
    (keySet : AttestationKeySet) (message : List UInt8) :
    requireThresholdApproval rt env' keySet message =
      requireThresholdApproval rt env keySet message := by
  simp only [requireThresholdApproval, verificationInstruction, h]

/-- What a proposal needs besides its approval and a free slot: the runtime lets
the call through, the timelock fits behind the clock, and for a policy the
accounts of the reserve load. -/
def Serviceable (rt : Runtime) (s : Chain) (env : Env) (track : Track) : Prop :=
  Admissible rt env ∧ ∀ config, s.config = some config →
    (checkedAddI64 env.unixTimestamp config.governanceTimelockSeconds).isSome ∧
    (track = .policy → ∃ reserve, loadReserve rt s config = .ok reserve)

/-- A rotation that was accepted is accepted again, on the same signatures. -/
theorem rotation_again {keys : List Pubkey} {threshold : UInt8}
    (hstep : step rt t (.call env (.proposeAttestationKeyRotation keys threshold)) = some t')
    (hadvances : Advances t s) (hsettled : Settled t s) (hepoch : s.epoch = t.epoch)
    (hfree : s.pendingAction = none) (hprevious : env'.previous = env.previous)
    (hserviceable : Serviceable rt s env' .rotation) :
    ∃ s', step rt s (.call env' (.proposeAttestationKeyRotation keys threshold)) = some s' ∧
      approval rt (s, .call env' (.proposeAttestationKeyRotation keys threshold)) =
        approval rt (t, .call env (.proposeAttestationKeyRotation keys threshold)) := by
  simp only [step] at hstep
  split_ifs at hstep
  rw [toOption_eq_some] at hstep
  simp only [exec, proposeAttestationKeyRotation, bind_eq_ok, orFail_eq_ok, vacant_eq_ok,
    pure_eq_ok, exists_unit] at hstep
  obtain ⟨config, hconfig, k, hk, -, hvalid, hsigned, -⟩ := hstep
  obtain ⟨config', hconfig', hversion, -⟩ := hsettled config hconfig
  have hk' := hadvances.keySet_of_epoch hk hepoch
  have hmessage : proposeRotationMessage rt config' k keys threshold =
      proposeRotationMessage rt config k keys threshold := by
    rw [proposeRotationMessage, proposeRotationMessage, hversion]
  obtain ⟨hadmissible, hclock⟩ := hserviceable
  obtain ⟨eta, heta⟩ := Option.isSome_iff_exists.mp (hclock config' hconfig').1
  have haccepted : ∃ s', proposeAttestationKeyRotation rt s env' keys threshold = .ok s' := by
    simp only [proposeAttestationKeyRotation, bind_eq_ok, orFail_eq_ok, vacant_eq_ok, pure_eq_ok,
      exists_unit]
    refine ⟨_, config', hconfig', k, hk', hfree, hvalid, ?_, eta, heta, rfl⟩
    rw [requireThresholdApproval_congr hprevious, hmessage, hsigned]
  obtain ⟨s', hs'⟩ := haccepted
  refine ⟨s', by rw [step, if_pos hadmissible, toOption_eq_some, exec, hs'], ?_⟩
  simp only [approval, hconfig, hconfig', hk, hk', Option.bind_some, Option.map_some, hmessage,
    hprevious]

/-- A policy that was accepted is accepted again, on the same signatures. -/
theorem policy_again {treasuries : List Pubkey}
    (hstep : step rt t (.call env (.proposeRebalancePolicy treasuries)) = some t')
    (hadvances : Advances t s) (hsettled : Settled t s) (hepoch : s.epoch = t.epoch)
    (hfree : s.pendingPolicy = none) (hprevious : env'.previous = env.previous)
    (hserviceable : Serviceable rt s env' .policy) :
    ∃ s', step rt s (.call env' (.proposeRebalancePolicy treasuries)) = some s' ∧
      approval rt (s, .call env' (.proposeRebalancePolicy treasuries)) =
        approval rt (t, .call env (.proposeRebalancePolicy treasuries)) := by
  simp only [step] at hstep
  split_ifs at hstep
  rw [toOption_eq_some] at hstep
  simp only [exec, proposeRebalancePolicy, bind_eq_ok, orFail_eq_ok, vacant_eq_ok, require_eq_ok,
    pure_eq_ok, exists_unit] at hstep
  obtain ⟨config, hconfig, k, hk, policy, hpolicy, -, ⟨mint, reserve⟩, hload, hvalid, htimelock,
    hsigned, -⟩ := hstep
  obtain ⟨config', hconfig', hversion, hvault⟩ := hsettled config hconfig
  obtain ⟨hmint, hprogram⟩ := hvault (loadReserve_ok hload).1
  obtain ⟨policy', hpolicy', -⟩ := hadvances.policy policy hpolicy
  obtain ⟨config₁, hconfig₁, hsame⟩ := hadvances.timelock config hconfig
  obtain rfl := Option.some.inj (hconfig'.symm.trans hconfig₁)
  have hk' := hadvances.keySet_of_epoch hk hepoch
  have hreserve : reserveTokenAccount rt config' = reserveTokenAccount rt config := by
    rw [reserveTokenAccount, reserveTokenAccount, hmint, hprogram]
  have hmessage : policyMessage rt config' k actionProposeRebalancePolicy treasuries =
      policyMessage rt config k actionProposeRebalancePolicy treasuries := by
    rw [policyMessage, policyMessage, hversion]
  obtain ⟨hadmissible, hclock⟩ := hserviceable
  obtain ⟨hroom, hloads⟩ := hclock config' hconfig'
  obtain ⟨eta, heta⟩ := Option.isSome_iff_exists.mp hroom
  obtain ⟨accounts, haccounts⟩ := hloads rfl
  have haccepted : ∃ s', proposeRebalancePolicy rt s env' treasuries = .ok s' := by
    simp only [proposeRebalancePolicy, bind_eq_ok, orFail_eq_ok, vacant_eq_ok, require_eq_ok,
      pure_eq_ok, exists_unit]
    refine ⟨_, config', hconfig', k, hk', policy', hpolicy', hfree, accounts, haccounts, ?_, ?_,
      ?_, eta, heta, rfl⟩
    · rw [hreserve, hvalid]
    · rw [hsame]
      exact htimelock
    · rw [requireThresholdApproval_congr hprevious, hmessage, hsigned]
  obtain ⟨s', hs'⟩ := haccepted
  refine ⟨s', by rw [step, if_pos hadmissible, toOption_eq_some, exec, hs'], ?_⟩
  simp only [approval, hconfig, hconfig', hk, hk', Option.bind_some, Option.map_some, hmessage,
    hprevious]

/-! ## Every run -/

/-- At time 20, a threshold cancels the sample proposal. -/
def sampleCancel : Op sampleRuntime :=
  .call (sampleSigned 20 (governanceMessage protocolVersion sampleRuntime.programId 0
    actionCancelRotation (sampleRuntime.sha256 (cancelParams actionProposeRotation 110))))
    .cancelAttestationKeyRotation

theorem sampleCancel_accepted :
    step sampleRuntime sampleProposed sampleCancel = some sampleInitialized := by
  rw [sampleCancel, step, if_pos (sampleSigned_admissible _ _), toOption_eq_some]
  simp only [exec, cancelAttestationKeyRotation, bind_eq_ok, orFail_eq_ok, pure_eq_ok,
    exists_unit]
  exact ⟨sampleConfig, rfl, sampleKeySet, rfl, _, rfl, sampleSigned_approved _ _ _ _ _, rfl⟩

theorem sampleCanceled_final :
    Run.final (step sampleRuntime) sampleChain [sampleInitialize, samplePropose, sampleCancel] =
      sampleInitialized := by
  rw [Run.final_cons, Run.advance_of_some sampleInitialize_accepted, Run.final_cons,
    Run.advance_of_some samplePropose_accepted, Run.final_cons,
    Run.advance_of_some sampleCancel_accepted, Run.final_nil]

end Solana
