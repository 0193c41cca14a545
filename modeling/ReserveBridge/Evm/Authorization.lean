-- SUMMARY: Single use in the Robinhood reserve contract: how obligations evolve, that request ids and governance nonces are spent once, and that a signature authorizes one request only.
import ReserveBridge.Evm.Solvency

/-!
# Exit exclusivity and authorization

Replay protection is spread over the obligation status, the executed request
keys, the governance nonce and the signer epoch. Each has its own section. The
last one reads the signed struct hashes back: an `Authorization` is what a pair
of signatures approves, and its digest determines it.
-/

namespace Evm
open Guard

variable {Sig : Type} {C : Crypto Sig} {I : Immutables} {s s' : Storage} {w w' : World}

/-! ## Obligations -/

/-- The moves of an obligation's status after creation. -/
def ObligationStatus.canBecome (a b : ObligationStatus) : Prop :=
  a = b ∨ (a = .pending ∧ (b = .settled ∨ b = .refunded ∨ b = .abandoned))

/-- What an obligation keeps, and how its status may move. -/
structure Obligation.Evolves (a b : Obligation) : Prop where
  depositor : b.depositor = a.depositor
  amount : b.amount = a.amount
  route : b.route = a.route
  status : a.status.canBecome b.status

/-- What holds between an earlier and a later storage of one contract. -/
structure Storage.Evolves (s s' : Storage) : Prop where
  count_le : s.obligationCount ≤ s'.obligationCount
  epoch_le : s.signerEpoch ≤ s'.signerEpoch
  obligation : ∀ i < s.obligationCount, (s.obligations i).Evolves (s'.obligations i)

theorem ObligationStatus.canBecome.trans {a b c : ObligationStatus} (hab : a.canBecome b)
    (hbc : b.canBecome c) : a.canBecome c := by
  rcases hab with rfl | ⟨rfl, hb⟩
  · exact hbc
  · rcases hbc with rfl | ⟨rfl, -⟩
    · exact .inr ⟨rfl, hb⟩
    · simp at hb

theorem Obligation.Evolves.refl (a : Obligation) : a.Evolves a := ⟨rfl, rfl, rfl, .inl rfl⟩

theorem Obligation.Evolves.trans {a b c : Obligation} (hab : a.Evolves b) (hbc : b.Evolves c) :
    a.Evolves c :=
  ⟨hbc.depositor.trans hab.depositor, hbc.amount.trans hab.amount, hbc.route.trans hab.route,
    hab.status.trans hbc.status⟩

theorem Storage.Evolves.refl (s : Storage) : s.Evolves s :=
  ⟨le_rfl, le_rfl, fun _ _ => .refl _⟩

theorem Storage.Evolves.trans {s₁ s₂ s₃ : Storage} (h₁ : s₁.Evolves s₂) (h₂ : s₂.Evolves s₃) :
    s₁.Evolves s₃ where
  count_le := h₁.count_le.trans h₂.count_le
  epoch_le := h₁.epoch_le.trans h₂.epoch_le
  obligation i hi :=
    (h₁.obligation i hi).trans (h₂.obligation i (hi.trans_le h₁.count_le))

theorem Storage.evolves_open {window : Window} {ob : Obligation} :
    s.Evolves (s.openObligation window ob) := by
  refine ⟨Nat.le_succ _, le_rfl, fun i hi => ?_⟩
  have hne : i ≠ s.obligationCount := by omega
  simp only [Storage.openObligation, setObligation, Function.update_of_ne hne]
  exact .refl _

theorem Storage.evolves_close {key : Word} {index : ℕ} {status : ObligationStatus}
    (hpending : (s.obligations index).status = .pending)
    (hterminal : status = .settled ∨ status = .refunded ∨ status = .abandoned) :
    s.Evolves ((s.spend key).close index status) := by
  refine ⟨le_rfl, le_rfl, fun i _ => ?_⟩
  by_cases hi : i = index
  · subst hi
    simp only [Storage.close, Storage.spend, Function.update_self]
    exact ⟨rfl, rfl, rfl, .inr ⟨hpending, hterminal⟩⟩
  · simp only [Storage.close, Storage.spend, Function.update_of_ne hi]
    exact .refl _

theorem Effect.evolves {env : CallEnv} {c : Call Sig} (heff : Effect C I w env c w') :
    w.bridge.Evolves w'.bridge := by
  cases heff with
  | deposit => exact Storage.evolves_open
  | executeRefund live pending => exact Storage.evolves_close pending.pending (by simp)
  | executeSettlement live pending => exact Storage.evolves_close pending.pending (by simp)
  | executeAbandonment live pending => exact Storage.evolves_close pending.pending (by simp)
  | rotateSigners => exact ⟨le_rfl, Nat.le_succ _, fun _ _ => .refl _⟩
  | _ => exact ⟨le_rfl, le_rfl, fun _ _ => .refl _⟩

theorem evolves_of_run (w : World) (ops : List (Op Sig)) :
    w.bridge.Evolves (Run.final (step C I) w ops).bridge := by
  refine Run.relates (fun _ => True) (fun w w' : World => w.bridge.Evolves w'.bridge)
    (fun _ => .refl _) (fun h₁ h₂ => h₁.trans h₂) (fun _ _ _ _ _ => trivial) ?_ trivial ops
  intro w op w' _ hs
  rcases step_cases hs with ⟨env, c, -, -, heff⟩ | ⟨token, -, -, rfl⟩
  · exact heff.evolves
  · exact .refl _

/-! ## Request ids -/

/-- The action and request id a call consumes. -/
def Call.request : Call Sig → Option (ℕ × ℕ)
  | .executePayout req _ => some (actionPayout, req.requestId)
  | .executeTreasuryWithdraw req _ => some (actionTreasuryWithdraw, req.requestId)
  | .executeRefund req _ => some (actionRefund, req.requestId)
  | .executeSettlement req _ => some (actionSettle, req.requestId)
  | .executeAbandonment req _ => some (actionAbandon, req.requestId)
  | _ => none

def Op.request : Op Sig → Option (ℕ × ℕ)
  | .call _ c => c.request
  | .thirdParty _ => none

/-- The request was executed before. -/
def Executed (C : Crypto Sig) (w : World) (r : ℕ × ℕ) : Prop :=
  w.bridge.executedRequest (requestKey C r.1 r.2) = true

theorem Effect.executedRequest {env : CallEnv} {c : Call Sig} (heff : Effect C I w env c w') :
    match c.request with
    | some r => ¬ Executed C w r ∧
      w'.bridge.executedRequest =
        Function.update w.bridge.executedRequest (requestKey C r.1 r.2) true
    | none => w'.bridge.executedRequest = w.bridge.executedRequest := by
  cases heff with
  | executePayout live unpaused legs signed fresh => exact ⟨by simp [Executed, fresh], rfl⟩
  | executeTreasuryWithdraw live signed fresh => exact ⟨by simp [Executed, fresh], rfl⟩
  | executeRefund live pending recipient amount legs signed fresh =>
    exact ⟨by simp [Executed, fresh], rfl⟩
  | executeSettlement live pending legs signed fresh => exact ⟨by simp [Executed, fresh], rfl⟩
  | executeAbandonment live pending legs signed fresh => exact ⟨by simp [Executed, fresh], rfl⟩
  | _ => rfl

theorem executed_fresh {op : Op Sig} {r : ℕ × ℕ} (hs : step C I w op = some w')
    (hr : op.request = some r) : ¬ Executed C w r ∧ Executed C w' r := by
  rcases step_cases hs with ⟨env, c, rfl, -, heff⟩ | ⟨token, rfl, -, rfl⟩
  · have hreq := heff.executedRequest
    simp only [Op.request] at hr
    simp only [hr] at hreq
    exact ⟨hreq.1, by simp [Executed, hreq.2]⟩
  · simp [Op.request] at hr

theorem executed_kept {op : Op Sig} {r : ℕ × ℕ} (hs : step C I w op = some w')
    (hr : Executed C w r) : Executed C w' r := by
  rcases step_cases hs with ⟨env, c, rfl, -, heff⟩ | ⟨token, rfl, -, rfl⟩
  · have hreq := heff.executedRequest
    unfold Executed at hr ⊢
    cases hc : c.request with
    | none =>
      simp only [hc] at hreq
      rw [hreq, hr]
    | some r' =>
      simp only [hc] at hreq
      rw [hreq.2, Function.update_apply]
      split_ifs with heq
      · rfl
      · exact hr
  · exact hr

/-! ## Governance nonces -/

/-- The governance nonce a call carries. -/
def Call.nonce : Call Sig → Option ℕ
  | .setPaused _ _ nonce _ _ => some nonce
  | .setRouteEnabled _ _ nonce _ _ => some nonce
  | .rotateSigners _ nonce _ _ => some nonce
  | .rotateGuardians _ nonce _ _ => some nonce
  | .setLimits _ nonce _ _ => some nonce
  | .commitMigration _ nonce _ _ => some nonce
  | .finalizeMigration nonce _ _ => some nonce
  | _ => none

def Op.nonce : Op Sig → Option ℕ
  | .call _ c => c.nonce
  | .thirdParty _ => none

theorem Effect.governanceNonce {env : CallEnv} {c : Call Sig} (heff : Effect C I w env c w') :
    match c.nonce with
    | some n => n = w.bridge.governanceNonce ∧ w'.bridge.governanceNonce = n + 1
    | none => w'.bridge.governanceNonce = w.bridge.governanceNonce := by
  cases heff with
  | setPaused live frozen signed => exact ⟨signed.1, by rw [signed.1]⟩
  | setRouteEnabled live frozen signed => exact ⟨signed.1, by rw [signed.1]⟩
  | rotateSigners live signed => exact ⟨signed.1, by rw [signed.1]⟩
  | rotateGuardians live signed => exact ⟨signed.1, by rw [signed.1]⟩
  | setLimits live signed => exact ⟨signed.1, by rw [signed.1]⟩
  | commitMigration live uncommitted paused ne signed => exact ⟨signed.1, by rw [signed.1]⟩
  | finalizeMigration live committed drained signed => exact ⟨signed.1, by rw [signed.1]⟩
  | _ => rfl

theorem governanceNonce_construct {env : CallEnv} {decimals : ℕ} {signers guardians : Triple}
    {limits : Limits} {token₀ : Erc20}
    (h : construct I env decimals signers guardians limits token₀ = .ok w) :
    w.bridge.governanceNonce = 0 := by
  rw [construct_ok h]
  rfl

theorem nonce_used {op : Op Sig} {n : ℕ} (hs : step C I w op = some w') (hn : op.nonce = some n) :
    n = w.bridge.governanceNonce ∧ w'.bridge.governanceNonce = n + 1 := by
  rcases step_cases hs with ⟨env, c, rfl, -, heff⟩ | ⟨token, rfl, -, rfl⟩
  · have hnonce := heff.governanceNonce
    simp only [Op.nonce] at hn
    simpa only [hn] using hnonce
  · simp [Op.nonce] at hn

theorem nonce_kept {op : Op Sig} (hs : step C I w op = some w') (hn : op.nonce = none) :
    w'.bridge.governanceNonce = w.bridge.governanceNonce := by
  rcases step_cases hs with ⟨env, c, rfl, -, heff⟩ | ⟨token, rfl, -, rfl⟩
  · have hnonce := heff.governanceNonce
    simp only [Op.nonce] at hn
    simpa only [hn] using hnonce
  · rfl

/-! ## Signatures -/

/-- What a pair of signatures approves: the fields of the EIP-712 structs. -/
inductive Authorization
  | payout (req : PayoutRequest) (source dest : ℕ)
  | treasuryWithdraw (req : TreasuryWithdrawRequest)
  | refund (req : RefundRequest) (route source dest : ℕ)
  | settlement (req : SettlementRequest) (route source dest : ℕ)
  | abandonment (req : AbandonmentRequest) (route source dest : ℕ)
  | governance (action : ℕ) (payload : List Word) (signerEpoch nonce expiry : ℕ)

namespace Authorization

def structHash (C : Crypto Sig) (I : Immutables) : Authorization → Word
  | .payout req source dest => payoutStructHash C I req source dest
  | .treasuryWithdraw req => treasuryWithdrawStructHash C I req
  | .refund req route source dest => refundStructHash C I req route source dest
  | .settlement req route source dest => settlementStructHash C req route source dest
  | .abandonment req route source dest => abandonmentStructHash C req route source dest
  | .governance action payload signerEpoch nonce expiry =>
    governanceStructHash C action (C.keccak256 (.encode payload)) signerEpoch nonce expiry

/-- What the signers sign. -/
def digest (C : Crypto Sig) (I : Immutables) (a : Authorization) : Word :=
  hashTypedData C I (a.structHash C I)

def signerEpoch : Authorization → ℕ
  | .payout req _ _ => req.signerEpoch
  | .treasuryWithdraw req => req.signerEpoch
  | .refund req _ _ _ => req.signerEpoch
  | .settlement req _ _ _ => req.signerEpoch
  | .abandonment req _ _ _ => req.signerEpoch
  | .governance _ _ signerEpoch _ _ => signerEpoch

/-- The typed structs have different type strings and list every field, so a
collision-free hash determines the authorization. -/
theorem structHash_injective (hC : Function.Injective C.keccak256) :
    Function.Injective (structHash C I) := by
  intro a b h
  cases a <;> cases b <;>
    simp only [structHash, payoutStructHash, treasuryWithdrawStructHash, refundStructHash,
      settlementStructHash, abandonmentStructHash, governanceStructHash, hC.eq_iff,
      Preimage.encode.injEq, List.cons.injEq, Preimage.text.injEq, reduceCtorEq, and_false] at h
  case payout.payout req _ _ req' _ _ =>
    cases req
    cases req'
    simp_all
  case treasuryWithdraw.treasuryWithdraw req req' =>
    cases req
    cases req'
    simp_all
  case refund.refund req _ _ _ req' _ _ _ =>
    cases req
    cases req'
    simp_all
  case settlement.settlement req _ _ _ req' _ _ _ =>
    cases req
    cases req'
    simp_all
  case abandonment.abandonment req _ _ _ req' _ _ _ =>
    cases req
    cases req'
    simp_all
  case governance.governance => simp_all
  -- settlements and abandonments have the same fields under different types
  case settlement.abandonment => exact absurd h.1 (by decide)
  case abandonment.settlement => exact absurd h.1 (by decide)

theorem digest_injective (hC : Function.Injective C.keccak256) :
    Function.Injective (digest C I) := by
  intro a b h
  have htyped : Preimage.typedData I.domainSeparator (a.structHash C I) =
      .typedData I.domainSeparator (b.structHash C I) := hC h
  exact structHash_injective hC (Preimage.typedData.inj htyped).2

end Authorization

/-- The signatures a call carries. -/
def Call.signatures : Call Sig → List Sig
  | .executePayout _ signatures => signatures
  | .executeTreasuryWithdraw _ signatures => signatures
  | .executeRefund _ signatures => signatures
  | .executeSettlement _ signatures => signatures
  | .executeAbandonment _ signatures => signatures
  | .setPaused _ _ _ _ signatures => signatures
  | .setRouteEnabled _ _ _ _ signatures => signatures
  | .rotateSigners _ _ _ signatures => signatures
  | .rotateGuardians _ _ _ signatures => signatures
  | .setLimits _ _ _ signatures => signatures
  | .commitMigration _ _ _ signatures => signatures
  | .finalizeMigration _ _ signatures => signatures
  | .deposit .. | .guardianPause .. | .vetoMigration => []

/-- The authorization a call needs in the state it is made in. Deposits and the
two guardian calls need none. -/
def Call.authorization (I : Immutables) (s : Storage) : Call Sig → Option Authorization
  | .executePayout req _ =>
    (routeLegs I req.route).toOption.map fun legs => .payout req legs.1 legs.2.1
  | .executeTreasuryWithdraw req _ => some (.treasuryWithdraw req)
  | .executeRefund req _ =>
    let route := (s.obligations req.obligationIndex).route
    (routeLegs I route).toOption.map fun legs => .refund req route legs.1 legs.2.1
  | .executeSettlement req _ =>
    let route := (s.obligations req.obligationIndex).route
    (routeLegs I route).toOption.map fun legs => .settlement req route legs.1 legs.2.1
  | .executeAbandonment req _ =>
    let route := (s.obligations req.obligationIndex).route
    (routeLegs I route).toOption.map fun legs => .abandonment req route legs.1 legs.2.1
  | .setPaused depositsPaused payoutsPaused nonce expiry _ =>
    some (.governance actionSetPause [depositsPaused.toNat, payoutsPaused.toNat] s.signerEpoch
      nonce expiry)
  | .setRouteEnabled route enabled nonce expiry _ =>
    some (.governance actionSetRouteEnabled [route, enabled.toNat] s.signerEpoch nonce expiry)
  | .rotateSigners newSigners nonce expiry _ =>
    some (.governance actionRotateSigners newSigners.toList s.signerEpoch nonce expiry)
  | .rotateGuardians newGuardians nonce expiry _ =>
    some (.governance actionRotateGuardians newGuardians.toList s.signerEpoch nonce expiry)
  | .setLimits newLimits nonce expiry _ =>
    some (.governance actionSetLimits newLimits.words s.signerEpoch nonce expiry)
  | .commitMigration successor nonce expiry _ =>
    some (.governance actionCommitMigration [successor] s.signerEpoch nonce expiry)
  | .finalizeMigration nonce expiry _ =>
    some (.governance actionFinalizeMigration [s.migrationSuccessor] s.signerEpoch nonce expiry)
  | .deposit .. | .guardianPause .. | .vetoMigration => none

/-- The contract checked `signatures` against the authorization `a`. -/
def Checked (C : Crypto Sig) (I : Immutables) (s : Storage) (env : CallEnv)
    (a : Authorization) (signatures : List Sig) : Prop :=
  ∃ expiry, authorize C I s env (a.structHash C I) a.signerEpoch expiry signatures = .ok ()

theorem Effect.checked {env : CallEnv} {c : Call Sig} (heff : Effect C I w env c w') :
    match c.authorization I w.bridge with
    | some a => Checked C I w.bridge env a c.signatures
    | none => c.signatures = [] := by
  cases heff with
  | executePayout live unpaused legs signed =>
    simp only [Call.authorization, legs, Except.toOption, Option.map_some]
    exact ⟨_, signed⟩
  | executeTreasuryWithdraw live signed => exact ⟨_, signed⟩
  | executeRefund live pending recipient amount legs signed =>
    simp only [Call.authorization, legs, Except.toOption, Option.map_some]
    exact ⟨_, signed⟩
  | executeSettlement live pending legs signed =>
    simp only [Call.authorization, legs, Except.toOption, Option.map_some]
    exact ⟨_, signed⟩
  | executeAbandonment live pending legs signed =>
    simp only [Call.authorization, legs, Except.toOption, Option.map_some]
    exact ⟨_, signed⟩
  | setPaused live frozen signed => exact ⟨_, signed.2⟩
  | setRouteEnabled live frozen signed => exact ⟨_, signed.2⟩
  | rotateSigners live signed => exact ⟨_, signed.2⟩
  | rotateGuardians live signed => exact ⟨_, signed.2⟩
  | setLimits live signed => exact ⟨_, signed.2⟩
  | commitMigration live uncommitted paused ne signed => exact ⟨_, signed.2⟩
  | finalizeMigration live committed drained signed => exact ⟨_, signed.2⟩
  | deposit | guardianPause | vetoMigration => rfl

/-- Recovery binds a digest to its signer: when it yields a current signer, the
signature was made over that digest. `made` says what each signature was made
over. -/
def Binds (C : Crypto Sig) (made : Sig → Word) (s : Storage) : Prop :=
  ∀ digest sig signer, s.isSigner signer = true → C.recover digest sig = some signer →
    made sig = digest

/-- Checked signatures were made over the digest of the authorization, under the
current epoch. -/
theorem Checked.made_eq {env : CallEnv} {a : Authorization} {signatures : List Sig}
    {made : Sig → Word} (h : Checked C I s env a signatures) (hbind : Binds C made s) :
    signatures.length = 2 ∧ a.signerEpoch = s.signerEpoch ∧
      ∀ sig ∈ signatures, made sig = a.digest C I := by
  obtain ⟨expiry, hauth⟩ := h
  obtain ⟨-, hepoch, sig₀, sig₁, first, second, rfl, hfirst, hsecond, hs₀, hs₁, -⟩ :=
    authorize_ok hauth
  refine ⟨rfl, hepoch, fun sig hsig => ?_⟩
  rcases List.mem_pair.mp hsig with rfl | rfl
  · exact hbind _ _ _ hs₀ hfirst
  · exact hbind _ _ _ hs₁ hsecond

/-- Signatures made for some authorization are accepted for that one only, and
only in its epoch. -/
theorem Effect.authorization_eq {env : CallEnv} {c : Call Sig} {made : Sig → Word}
    {a : Authorization} {sig : Sig} (heff : Effect C I w env c w')
    (hC : Function.Injective C.keccak256) (hbind : Binds C made w.bridge)
    (hsig : sig ∈ c.signatures) (hmade : made sig = a.digest C I) :
    c.authorization I w.bridge = some a ∧ a.signerEpoch = w.bridge.signerEpoch := by
  have hchecked := heff.checked
  cases hc : c.authorization I w.bridge with
  | none =>
    simp only [hc] at hchecked
    simp [hchecked] at hsig
  | some b =>
    simp only [hc] at hchecked
    obtain ⟨-, hepoch, hall⟩ := hchecked.made_eq hbind
    have hba : b = a := Authorization.digest_injective hC ((hall sig hsig).symm.trans hmade)
    subst hba
    exact ⟨rfl, hepoch⟩

/-! ## Every run -/

/-- Over every run from deployment: obligations keep their terms and leave
`pending` once; an action and request id succeed together at most once;
governance nonces are spent in order from 0; and an accepted call's signatures,
two whenever it needs any, approve that very call under the current epoch and
nothing else. -/
theorem single_use_of_run {env₀ : CallEnv} {decimals : ℕ} {signers guardians : Triple}
    {limits : Limits} {token₀ : Erc20} (made : Sig → Word)
    (hC : Function.Injective C.keccak256)
    (h : construct I env₀ decimals signers guardians limits token₀ = .ok w)
    (ops : List (Op Sig)) :
    (∀ pre post, ops = pre ++ post →
      (Run.final (step C I) w pre).bridge.Evolves (Run.final (step C I) w ops).bridge) ∧
    ((Run.history (step C I) w ops).filterMap fun e => e.2.request).Nodup ∧
    (∃ k, ((Run.history (step C I) w ops).filterMap fun e => e.2.nonce) = List.range k) ∧
    (∀ t env c, (t, .call env c) ∈ Run.history (step C I) w ops → Binds C made t.bridge →
      ((c.authorization I t.bridge).isSome → c.signatures.length = 2) ∧
      ∀ sig ∈ c.signatures, ∀ a : Authorization, made sig = a.digest C I →
        c.authorization I t.bridge = some a ∧ a.signerEpoch = t.bridge.signerEpoch) := by
  refine ⟨?_, ?_, ?_, ?_⟩
  · rintro pre post rfl
    rw [Run.final_append]
    exact evolves_of_run _ post
  · exact (Run.single_use (step C I) (fun _ => True) Op.request (Executed C)
      (fun _ _ _ _ _ => trivial)
      (fun _ _ _ _ _ hs hk => executed_fresh hs hk)
      (fun _ _ _ _ _ hs hk => executed_kept hs hk) trivial ops).1
  · obtain ⟨k, hlist, -⟩ := Run.counter (step C I) (fun _ => True) Op.nonce
      (fun w => w.bridge.governanceNonce) (fun _ _ _ _ _ => trivial)
      (fun _ _ _ _ _ hs hn => nonce_used hs hn) (fun _ _ _ _ hs hn => nonce_kept hs hn)
      trivial ops
    have hzero : w.bridge.governanceNonce = 0 := governanceNonce_construct h
    exact ⟨k, by rw [hlist, hzero, List.range_eq_range']⟩
  · intro t env c hmem hbind
    obtain ⟨pre, post, t', -, rfl, hstep⟩ := Run.mem_history hmem
    have heff : Effect C I (Run.final (step C I) w pre) env c t' :=
      .of_exec (by simpa [step] using hstep)
    refine ⟨fun hsome => ?_, fun sig hsig a hmade => heff.authorization_eq hC hbind hsig hmade⟩
    obtain ⟨a, ha⟩ := Option.isSome_iff_exists.mp hsome
    have hchecked := heff.checked
    simp only [ha] at hchecked
    exact (hchecked.made_eq hbind).1

/-! ## Signing at the sample deployment -/

/-- The signatures of the first two sample signers. -/
def samplePair (structHash : Word) : List (Address × Word) :=
  [(101, hashTypedData idealCrypto sampleImmutables structHash),
    (102, hashTypedData idealCrypto sampleImmutables structHash)]

theorem authorize_samplePair {env : CallEnv} {structHash epoch expiry : ℕ}
    (ht : env.timestamp ≤ expiry) (hepoch : epoch = s.signerEpoch)
    (h₀ : s.isSigner 101 = true) (h₁ : s.isSigner 102 = true) :
    authorize idealCrypto sampleImmutables s env structHash epoch expiry
      (samplePair structHash) = .ok () := by
  have hrecover : ∀ digest a, idealCrypto.recover digest (a, digest) = some a := by
    simp [idealCrypto]
  simp only [authorize, samplePair, bind_eq_ok, require_eq_ok, exists_unit, orFail_eq_ok,
    hrecover]
  exact ⟨ht, hepoch, 101, rfl, h₀, 102, rfl, h₁, by decide⟩

theorem binds_ideal (s : Storage) : Binds idealCrypto Prod.snd s := by
  intro digest sig signer _ hrecover
  simp only [idealCrypto] at hrecover
  split_ifs at hrecover with heq
  exact heq

/-- The quorum opens both directions at nonce 0. -/
def sampleUnpause : Call (Address × Word) :=
  .setPaused false false 0 5000 (samplePair (governanceStructHash idealCrypto actionSetPause
    (idealCrypto.keccak256 (.encode [0, 0])) 0 0 5000))

theorem sampleUnpause_accepted :
    ∃ w', exec idealCrypto sampleImmutables sampleWorld (sampleEnv 9) sampleUnpause = .ok w' := by
  simp only [sampleUnpause, exec, onBridge_ok, setPaused, bind_eq_ok, require_eq_ok, pure_eq_ok,
    exists_unit, governance_ok]
  have hidle : sampleWorld.bridge.migrationCommitted ≠ true := by decide
  exact ⟨_, _, ⟨rfl, fun hcommitted => absurd hcommitted hidle, _,
    ⟨⟨rfl, authorize_samplePair (by decide) rfl rfl rfl⟩, rfl⟩, rfl⟩, rfl⟩

theorem single_use_of_run_sample :
    (sampleWorld, .call (sampleEnv 9) sampleUnpause) ∈
      Run.history (step idealCrypto sampleImmutables) sampleWorld
        [.call (sampleEnv 9) sampleUnpause] ∧
    Binds idealCrypto Prod.snd sampleWorld.bridge ∧
    ∀ sig ∈ sampleUnpause.signatures, ∀ a : Authorization,
      sig.2 = a.digest idealCrypto sampleImmutables →
        sampleUnpause.authorization sampleImmutables sampleWorld.bridge = some a ∧
        a.signerEpoch = 0 := by
  obtain ⟨w', hw'⟩ := sampleUnpause_accepted
  have hstep : step idealCrypto sampleImmutables sampleWorld
      (.call (sampleEnv 9) sampleUnpause) = some w' := by
    simpa [step] using hw'
  have hmem : (sampleWorld, .call (sampleEnv 9) sampleUnpause) ∈
      Run.history (step idealCrypto sampleImmutables) sampleWorld
        [.call (sampleEnv 9) sampleUnpause] := by
    rw [Run.history_cons_of_some hstep]
    exact List.mem_cons_self
  have hrun := single_use_of_run Prod.snd idealCrypto_injective
    sampleWorld_constructed [.call (sampleEnv 9) sampleUnpause]
  exact ⟨hmem, binds_ideal _, (hrun.2.2.2 _ _ _ hmem (binds_ideal _)).2⟩

end Evm
