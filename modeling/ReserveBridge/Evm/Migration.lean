-- SUMMARY: Migration of the Robinhood reserve contract: what stays frozen while a commitment stands, what a finalization proves and moves, and that nothing happens after it.
import ReserveBridge.Evm.Authorization

/-!
# Migration

A commitment stands from an accepted `commitMigration` until an accepted
`vetoMigration`. While it stands the reserve only shrinks, and
`finalizeMigration` can only finalize the commitment that stands.
-/

namespace Evm
open Guard

variable {Sig : Type} {C : Crypto Sig} {I : Immutables} {s s' : Storage} {w w' : World}
  {env : CallEnv} {c : Call Sig}

/-- What the migration flags imply. -/
structure MigrationInv (I : Immutables) (w : World) : Prop where
  paused : w.bridge.migrationCommitted = true →
    w.bridge.depositsPaused = true ∧ w.bridge.payoutsPaused = true
  successor_ne : w.bridge.migrationCommitted = true → w.bridge.migrationSuccessor ≠ I.self
  committed : w.bridge.migrated = true → w.bridge.migrationCommitted = true

/-- The calls that would reopen the reserve: deposits, payouts, enabling a route. -/
def Call.reopens : Call Sig → Bool
  | .deposit .. => true
  | .executePayout .. => true
  | .setRouteEnabled _ enabled _ _ _ => enabled
  | _ => false

def Call.isVeto : Call Sig → Bool
  | .vetoMigration => true
  | _ => false

/-! ## One call -/

/-- How a call moves the commitment. -/
theorem Effect.commitment (heff : Effect C I w env c w') :
    match c with
    | .commitMigration successor .. => w.bridge.migrationCommitted = false ∧
      w'.bridge.migrationCommitted = true ∧ w'.bridge.migrationSuccessor = successor
    | .vetoMigration => w.bridge.migrationCommitted = true ∧
      w'.bridge.migrationCommitted = false
    | _ => w'.bridge.migrationCommitted = w.bridge.migrationCommitted ∧
      w'.bridge.migrationSuccessor = w.bridge.migrationSuccessor := by
  cases heff with
  | commitMigration live uncommitted => exact ⟨uncommitted, rfl, rfl⟩
  | vetoMigration guardian live committed => exact ⟨committed, rfl⟩
  | _ => exact ⟨rfl, rfl⟩

theorem MigrationInv.effect (h : MigrationInv I w) (heff : Effect C I w env c w') :
    MigrationInv I w' := by
  cases heff with
  | guardianPause =>
    refine ⟨fun hc => ?_, h.successor_ne, h.committed⟩
    simp [(h.paused hc).1, (h.paused hc).2]
  | setPaused live frozen => exact ⟨frozen, h.successor_ne, h.committed⟩
  | commitMigration live uncommitted paused ne => exact ⟨fun _ => paused, fun _ => ne, fun _ => rfl⟩
  | finalizeMigration live committed => exact ⟨h.paused, h.successor_ne, fun _ => committed⟩
  | vetoMigration guardian live =>
    exact ⟨nofun, nofun, fun hm => absurd hm (by simp [live])⟩
  | _ => exact ⟨h.paused, h.successor_ne, h.committed⟩

theorem MigrationInv.step {op : Op Sig} (h : MigrationInv I w) (hs : step C I w op = some w') :
    MigrationInv I w' := by
  rcases step_cases hs with ⟨env, c, -, -, heff⟩ | ⟨token, -, -, rfl⟩
  · exact h.effect heff
  · exact ⟨h.paused, h.successor_ne, h.committed⟩

theorem MigrationInv.run (h : MigrationInv I w) (ops : List (Op Sig)) :
    MigrationInv I (Run.final (Evm.step C I) w ops) :=
  Run.invariant (fun _ _ _ hw hs => hw.step hs) h ops

theorem MigrationInv.construct {decimals : ℕ} {signers guardians : Triple} {limits : Limits}
    {token₀ : Erc20} (h : construct I env decimals signers guardians limits token₀ = .ok w) :
    MigrationInv I w ∧ w.bridge.migrationCommitted = false := by
  obtain rfl := construct_ok h
  exact ⟨⟨nofun, nofun, nofun⟩, rfl⟩

/-- Under a commitment nothing reopens the reserve and no liability is added. -/
theorem Effect.frozen (heff : Effect C I w env c w') (h : MigrationInv I w)
    (hc : w.bridge.migrationCommitted = true) :
    c.reopens = false ∧
      w'.bridge.outstandingRefundableCount ≤ w.bridge.outstandingRefundableCount := by
  cases heff with
  | deposit live uncommitted => simp [uncommitted] at hc
  | executePayout live unpaused => simp [(h.paused hc).2] at unpaused
  | setRouteEnabled live frozen => exact ⟨frozen hc, le_rfl⟩
  | executeRefund | executeSettlement | executeAbandonment => exact ⟨rfl, Nat.sub_le _ _⟩
  | _ => exact ⟨rfl, le_rfl⟩

/-- After a finalization the only call accepted is `guardianPause`, and it finds
both flags set. -/
theorem Effect.terminal (heff : Effect C I w env c w') (h : MigrationInv I w)
    (hm : w.bridge.migrated = true) :
    (∃ pauseDeposits pausePayouts, c = .guardianPause pauseDeposits pausePayouts) ∧ w' = w := by
  cases heff with
  | guardianPause =>
    refine ⟨⟨_, _, rfl⟩, ?_⟩
    obtain ⟨hdeposits, hpayouts⟩ := h.paused (h.committed hm)
    obtain ⟨s, token⟩ := w
    cases s
    simp_all
  | _ => simp_all

theorem sweepReserve_ok {token token' : Erc20} {successor : Address}
    (h : sweepReserve I token successor = .ok token') (hne : successor ≠ I.self) :
    token'.balanceOf I.self = 0 ∧
      token'.balanceOf successor = token.balanceOf successor + token.balanceOf I.self := by
  simp only [sweepReserve] at h
  split_ifs at h with hzero
  · have hbal := (Erc20.transfer_ok h).2.2
    have hself := hbal I.self
    have hsucc := hbal successor
    simp only [if_true, if_neg hne, if_neg hne.symm] at hself hsucc
    omega
  · obtain rfl := Except.ok.inj h
    simp only [ne_eq, not_not] at hzero
    omega

/-! ## The standing commitment -/

/-- In the run `ops` from `w`, the commitment to `successor` under `nonce` was
accepted, leading to `w₁`, and `mid` followed without an accepted veto. -/
def Standing (C : Crypto Sig) (I : Immutables) (w : World) (ops : List (Op Sig))
    (successor nonce : ℕ) (w₁ : World) (mid : List (Op Sig)) : Prop :=
  ∃ pre env expiry signatures,
    ops = pre ++ .call env (.commitMigration successor nonce expiry signatures) :: mid ∧
    exec C I (Run.final (step C I) w pre) env
      (.commitMigration successor nonce expiry signatures) = .ok w₁ ∧
    ∀ t env c, (t, .call env c) ∈ Run.history (step C I) w₁ mid → c.isVeto = false

/-- Without a veto a commitment outlasts any run, with its successor. -/
theorem committed_of_run {mid : List (Op Sig)}
    (hveto : ∀ t env c, (t, .call env c) ∈ Run.history (step C I) w mid → c.isVeto = false)
    (hc : w.bridge.migrationCommitted = true) :
    (Run.final (step C I) w mid).bridge.migrationCommitted = true ∧
      (Run.final (step C I) w mid).bridge.migrationSuccessor = w.bridge.migrationSuccessor := by
  induction mid generalizing w with
  | nil => exact ⟨hc, rfl⟩
  | cons op mid ih =>
    cases hs : step C I w op with
    | none =>
      rw [Run.history_cons_of_none hs] at hveto
      simpa only [Run.final_cons, Run.advance_of_none hs] using ih hveto hc
    | some w' =>
      rw [Run.history_cons_of_some hs] at hveto
      have hrest := ih (w := w') fun t env c hmem => hveto t env c (List.mem_cons_of_mem _ hmem)
      rw [Run.final_cons, Run.advance_of_some hs]
      rcases step_cases hs with ⟨env, c, rfl, -, heff⟩ | ⟨token, rfl, -, rfl⟩
      · have hmove := heff.commitment
        have hnot : c.isVeto = false := hveto w env c List.mem_cons_self
        cases c with
        | commitMigration => simp [hc] at hmove
        | vetoMigration => simp [Call.isVeto] at hnot
        | _ =>
          obtain ⟨hcommitted, hsuccessor⟩ := hmove
          simpa only [hsuccessor] using hrest (hcommitted.trans hc)
      · exact hrest hc

theorem Standing.committed {ops mid : List (Op Sig)} {successor nonce : ℕ} {w₁ : World}
    (h : Standing C I w ops successor nonce w₁ mid) :
    Run.final (step C I) w ops = Run.final (step C I) w₁ mid ∧
    ∀ mid₁ mid₂, mid = mid₁ ++ mid₂ →
      (Run.final (step C I) w₁ mid₁).bridge.migrationCommitted = true ∧
      (Run.final (step C I) w₁ mid₁).bridge.migrationSuccessor = successor := by
  obtain ⟨pre, env, expiry, signatures, rfl, hexec, hveto⟩ := h
  have hstep : step C I (Run.final (step C I) w pre)
      (.call env (.commitMigration successor nonce expiry signatures)) = some w₁ := by
    simpa [step] using hexec
  refine ⟨by rw [Run.final_append, Run.final_cons, Run.advance_of_some hstep], ?_⟩
  rintro mid₁ mid₂ rfl
  obtain ⟨-, hcommitted, hsuccessor⟩ := (Effect.of_exec hexec).commitment
  rw [← hsuccessor]
  refine committed_of_run (fun t env c hmem => hveto t env c ?_) hcommitted
  rw [Run.history_append]
  exact List.mem_append_left _ hmem

/-- A run that starts uncommitted and ends committed has a standing commitment. -/
theorem exists_standing {ops : List (Op Sig)} (h₀ : w.bridge.migrationCommitted = false)
    (h : (Run.final (step C I) w ops).bridge.migrationCommitted = true) :
    ∃ successor nonce w₁ mid, Standing C I w ops successor nonce w₁ mid := by
  obtain ⟨pre, op, mid, w₁, rfl, hs, hpre, hmid⟩ :=
    Run.last_rise (P := fun w : World => w.bridge.migrationCommitted = true)
      (by simp [h₀]) h
  have hcommitted := hmid [] List.nil_prefix
  rcases step_cases hs with ⟨env, c, rfl, hexec, heff⟩ | ⟨token, rfl, -, rfl⟩
  · have hmove := heff.commitment
    cases c with
    | commitMigration successor nonce expiry signatures =>
      refine ⟨successor, nonce, w₁, mid, pre, env, expiry, signatures, rfl, hexec, ?_⟩
      -- a veto would have lowered the flag
      intro t env' c' hmem
      obtain ⟨before, after, t', rfl, rfl, hb⟩ := Run.mem_history hmem
      have hafter := hmid (before ++ [.call env' c']) ⟨after, by simp⟩
      rw [Run.final_append, Run.final_cons, Run.advance_of_some hb] at hafter
      have heff' : Effect C I _ env' c' t' := .of_exec (by simpa [step] using hb)
      cases c' with
      | vetoMigration =>
        have hlowered : t'.bridge.migrationCommitted = false := heff'.commitment.2
        simp [hlowered] at hafter
      | _ => rfl
    | vetoMigration =>
      have hlowered : w₁.bridge.migrationCommitted = false := hmove.2
      simp [hlowered] at hcommitted
    | _ => exact absurd (hmove.1.symm.trans hcommitted) hpre
  · exact absurd hcommitted hpre

theorem nonce_le_of_run (w : World) (ops : List (Op Sig)) :
    w.bridge.governanceNonce ≤ (Run.final (step C I) w ops).bridge.governanceNonce := by
  obtain ⟨k, -, hk⟩ := Run.counter (step C I) (fun _ => True) Op.nonce
    (fun w => w.bridge.governanceNonce) (fun _ _ _ _ _ => trivial)
    (fun _ _ _ _ _ hs hn => nonce_used hs hn) (fun _ _ _ _ hs hn => nonce_kept hs hn)
    trivial ops (s := w)
  omega

/-- The commitment that stands was made under a nonce the counter has passed. -/
theorem Standing.nonce_lt {ops mid : List (Op Sig)} {successor nonce : ℕ} {w₁ : World}
    (h : Standing C I w ops successor nonce w₁ mid) :
    w.bridge.governanceNonce ≤ nonce ∧
      nonce < (Run.final (step C I) w ops).bridge.governanceNonce := by
  rw [h.committed.1]
  obtain ⟨pre, env, expiry, signatures, rfl, hexec, -⟩ := h
  obtain ⟨hnonce, hnext⟩ := (Effect.of_exec hexec).governanceNonce
  have hbefore := nonce_le_of_run (C := C) (I := I) w pre
  have hafter := nonce_le_of_run (C := C) (I := I) w₁ mid
  omega

/-! ## Finalization -/

def ObligationStatus.isTerminal : ObligationStatus → Prop
  | .settled | .refunded | .abandoned => True
  | .none | .pending => False

/-- With no liability left, every obligation ever created has been closed. -/
theorem Booked.all_terminal (h : Booked s) (hcount : s.outstandingRefundableCount = 0)
    {i : ℕ} (hi : i < s.obligationCount) : (s.obligations i).status.isTerminal := by
  have hnone : (s.obligations i).status ≠ .none := (h.created i).mpr hi
  have hpending : (s.obligations i).status ≠ .pending := by
    intro hp
    have hempty : s.pending = ∅ := Finset.card_eq_zero.mp (h.count.symm.trans hcount)
    simpa [hempty] using Storage.mem_pending.mpr ⟨hi, hp⟩
  cases hs : (s.obligations i).status <;> simp_all [ObligationStatus.isTerminal]

theorem count_le_of_run {mid : List (Op Sig)} (h : MigrationInv I w)
    (hc : ∀ m, m <+: mid → (Run.final (step C I) w m).bridge.migrationCommitted = true) :
    (Run.final (step C I) w mid).bridge.outstandingRefundableCount ≤
      w.bridge.outstandingRefundableCount := by
  induction mid using List.reverseRecOn with
  | nil => exact le_rfl
  | append_singleton mid op ih =>
    have hbefore := ih fun m hm => hc m (hm.trans (List.prefix_append _ _))
    refine le_trans ?_ hbefore
    rw [Run.final_append, Run.final_cons, Run.final_nil]
    cases hs : step C I (Run.final (step C I) w mid) op with
    | none => rw [Run.advance_of_none hs]
    | some w' =>
      rw [Run.advance_of_some hs]
      rcases step_cases hs with ⟨env, c, rfl, -, heff⟩ | ⟨token, rfl, -, rfl⟩
      · exact (heff.frozen (h.run mid) (hc mid (List.prefix_append _ _))).2
      · exact le_rfl

/-- While a commitment stands, both directions are paused, the refundable count
only shrinks and no accepted call reopens the reserve. -/
theorem Standing.frozen {ops mid : List (Op Sig)} {successor nonce : ℕ} {w₁ : World}
    (h : Standing C I w ops successor nonce w₁ mid) (hinv : MigrationInv I w₁) :
    (∀ mid₁ mid₂, mid = mid₁ ++ mid₂ →
      (Run.final (step C I) w₁ mid₁).bridge.depositsPaused = true ∧
      (Run.final (step C I) w₁ mid₁).bridge.payoutsPaused = true ∧
      (Run.final (step C I) w₁ mid).bridge.outstandingRefundableCount ≤
        (Run.final (step C I) w₁ mid₁).bridge.outstandingRefundableCount) ∧
    ∀ t env c, (t, .call env c) ∈ Run.history (step C I) w₁ mid → c.reopens = false := by
  have hcommitted := h.committed.2
  refine ⟨?_, ?_⟩
  · rintro mid₁ mid₂ rfl
    obtain ⟨hdeposits, hpayouts⟩ := (hinv.run mid₁).paused (hcommitted mid₁ mid₂ rfl).1
    refine ⟨hdeposits, hpayouts, ?_⟩
    rw [Run.final_append]
    refine count_le_of_run (hinv.run mid₁) fun m hm => ?_
    obtain ⟨rest, rfl⟩ := hm
    rw [← Run.final_append]
    exact (hcommitted (mid₁ ++ m) rest (by simp)).1
  · intro t env c hmem
    obtain ⟨before, after, t', rfl, rfl, hs⟩ := Run.mem_history hmem
    have heff : Effect C I _ env c t' := .of_exec (by simpa [step] using hs)
    exact (heff.frozen (hinv.run before) (hcommitted before _ rfl).1).1

/-- A commitment that stands after a veto was made after it, so the counter has
passed where it was at the veto. -/
theorem nonce_lt_of_veto {pre mid : List (Op Sig)} {v : World}
    (hveto : exec C I (Run.final (step C I) w pre) env .vetoMigration = .ok v)
    (hcommitted : (Run.final (step C I) w
      (pre ++ .call env .vetoMigration :: mid)).bridge.migrationCommitted = true) :
    (Run.final (step C I) w pre).bridge.governanceNonce <
      (Run.final (step C I) w (pre ++ .call env .vetoMigration :: mid)).bridge.governanceNonce := by
  have hstep : step C I (Run.final (step C I) w pre) (.call env .vetoMigration) = some v := by
    simpa [step] using hveto
  have hlowered := (Effect.of_exec hveto).commitment.2
  have hkept := (Effect.of_exec hveto).governanceNonce
  rw [Run.final_append, Run.final_cons, Run.advance_of_some hstep] at hcommitted ⊢
  obtain ⟨successor, n, w₁, mid', hstanding⟩ := exists_standing hlowered hcommitted
  obtain ⟨hle, hlt⟩ := hstanding.nonce_lt
  simp only [Call.nonce] at hkept
  omega

theorem migrated_kept {op : Op Sig} (h : MigrationInv I w ∧ w.bridge.migrated = true)
    (hs : step C I w op = some w') : MigrationInv I w' ∧ w'.bridge.migrated = true := by
  refine ⟨h.1.step hs, ?_⟩
  rcases step_cases hs with ⟨env, c, rfl, -, heff⟩ | ⟨token, rfl, -, rfl⟩
  · rw [(heff.terminal h.1 h.2).2]
    exact h.2
  · exact h.2

theorem migrated_of_run (h : MigrationInv I w ∧ w.bridge.migrated = true)
    (ops : List (Op Sig)) :
    MigrationInv I (Run.final (step C I) w ops) ∧
      (Run.final (step C I) w ops).bridge.migrated = true :=
  Run.invariant (fun _ _ _ hw hs => migrated_kept hw hs) h ops

/-- What an accepted finalization shows and does, in any reachable state. -/
structure Finalized (I : Immutables) (w : World) (successor : Address) (w' : World) : Prop where
  terminal : ∀ i < w.bridge.obligationCount, (w.bridge.obligations i).status.isTerminal
  emptied : w'.token.balanceOf I.self = 0
  credited : w'.token.balanceOf successor = w.token.balanceOf successor + w.token.balanceOf I.self
  migrated : w'.bridge.migrated = true

theorem Effect.finalized {nonce expiry : ℕ} {signatures : List Sig}
    (heff : Effect C I w env (.finalizeMigration nonce expiry signatures) w')
    (h : MigrationInv I w) (hbooked : Booked w.bridge) :
    w.bridge.migrationCommitted = true ∧ nonce = w.bridge.governanceNonce ∧
      Finalized I w w.bridge.migrationSuccessor w' := by
  cases heff with
  | finalizeMigration live committed drained signed swept =>
    obtain ⟨hself, hsucc⟩ := sweepReserve_ok swept (h.successor_ne committed)
    exact ⟨committed, signed.1, fun i hi => hbooked.all_terminal drained.1 hi, hself, hsucc, rfl⟩

/-! ## Every run -/

/-- Over every run from deployment. While a commitment stands, both directions
are paused, nothing reopens the reserve and the refundable count only shrinks.
A finalization needs every obligation closed, sweeps the whole balance to the
successor of the standing commitment under a later nonce, and afterwards
`guardianPause` is the only call accepted and it changes nothing. A finalize
authorization bound to a nonce the counter had reached by the time of a veto
never finalizes a later commitment. -/
theorem migration_of_run {env₀ : CallEnv} {decimals : ℕ} {signers guardians : Triple}
    {limits : Limits} {token₀ : Erc20}
    (h : construct I env₀ decimals signers guardians limits token₀ = .ok w)
    (ops : List (Op Sig)) :
    (∀ successor nonce w₁ mid, Standing C I w ops successor nonce w₁ mid →
      (∀ mid₁ mid₂, mid = mid₁ ++ mid₂ →
        (Run.final (step C I) w₁ mid₁).bridge.depositsPaused = true ∧
        (Run.final (step C I) w₁ mid₁).bridge.payoutsPaused = true ∧
        (Run.final (step C I) w₁ mid).bridge.outstandingRefundableCount ≤
          (Run.final (step C I) w₁ mid₁).bridge.outstandingRefundableCount) ∧
      ∀ t env c, (t, .call env c) ∈ Run.history (step C I) w₁ mid → c.reopens = false) ∧
    (∀ env nonce expiry signatures w',
      exec C I (Run.final (step C I) w ops) env (.finalizeMigration nonce expiry signatures) =
        .ok w' →
      (∃ successor n w₁ mid, Standing C I w ops successor n w₁ mid ∧ n < nonce ∧
        Finalized I (Run.final (step C I) w ops) successor w') ∧
      (∀ post env c w'', exec C I (Run.final (step C I) w' post) env c = .ok w'' →
        (∃ pauseDeposits pausePayouts, c = .guardianPause pauseDeposits pausePayouts) ∧
        w'' = Run.final (step C I) w' post) ∧
      ∀ pre env mid v, ops = pre ++ .call env .vetoMigration :: mid →
        exec C I (Run.final (step C I) w pre) env .vetoMigration = .ok v →
        (Run.final (step C I) w pre).bridge.governanceNonce < nonce) := by
  obtain ⟨hinit, huncommitted⟩ := MigrationInv.construct h
  have hinv : ∀ as : List (Op Sig), MigrationInv I (Run.final (step C I) w as) :=
    hinit.run
  refine ⟨?_, ?_⟩
  · intro successor nonce w₁ mid hstanding
    refine hstanding.frozen ?_
    obtain ⟨pre, env, expiry, signatures, -, hexec, -⟩ := hstanding
    exact (hinv pre).effect (.of_exec hexec)
  · intro env nonce expiry signatures w' hexec
    have hbooked := ((Solvent.construct h).run (C := C) ops).booked
    obtain ⟨hcommitted, hnonce, hfinal⟩ := (Effect.of_exec hexec).finalized (hinv ops) hbooked
    refine ⟨?_, ?_, ?_⟩
    · obtain ⟨successor, n, w₁, mid, hstanding⟩ := exists_standing huncommitted hcommitted
      refine ⟨successor, n, w₁, mid, hstanding, hnonce ▸ hstanding.nonce_lt.2, ?_⟩
      have hsuccessor : (Run.final (step C I) w ops).bridge.migrationSuccessor = successor := by
        rw [hstanding.committed.1]
        exact (hstanding.committed.2 mid [] (by simp)).2
      exact hsuccessor ▸ hfinal
    · intro post env' c w'' hpost
      obtain ⟨hinv', hmigrated⟩ := migrated_of_run (C := C)
        ⟨(hinv ops).effect (.of_exec hexec), hfinal.migrated⟩ post
      exact (Effect.of_exec hpost).terminal hinv' hmigrated
    · rintro pre env' mid v rfl hveto
      rw [hnonce]
      exact nonce_lt_of_veto hveto hcommitted

/-! ## A finalization signed ahead of its nonce -/

/-- A quorum of the signers of `s` signed, for `nonce`, the finalization of the
commitment that stands in `s`. -/
def Gathered (C : Crypto Sig) (I : Immutables) (s : Storage) (env : CallEnv)
    (nonce expiry : ℕ) (signatures : List Sig) : Prop :=
  authorize C I s env (governanceStructHash C actionFinalizeMigration
    (C.keccak256 (.encode [s.migrationSuccessor])) s.signerEpoch nonce expiry)
    s.signerEpoch expiry signatures = .ok ()

/-- The quorum commits to account 7 at `nonce`. -/
def sampleCommit (nonce : ℕ) : Op (Address × Word) :=
  .call (sampleEnv 9) (.commitMigration 7 nonce 5000 (samplePair (governanceStructHash idealCrypto
    actionCommitMigration (idealCrypto.keccak256 (.encode [7])) 0 nonce 5000)))

/-- The quorum finalizes the migration to account 7 at nonce 2. -/
def sampleFinalizeSignatures : List (Address × Word) :=
  samplePair (governanceStructHash idealCrypto actionFinalizeMigration
    (idealCrypto.keccak256 (.encode [7])) 0 2 5000)

def sampleVeto : Op (Address × Word) := .call (sampleEnv 201) .vetoMigration

/-- The sample deployment with its migration fields set. -/
def sampleMigration (nonce successor committedAt : ℕ) (committed : Bool) : World :=
  ⟨{ sampleWorld.bridge with
    governanceNonce := nonce
    migrationSuccessor := successor
    migrationCommittedAt := committedAt
    migrationCommitted := committed }, sampleToken⟩

theorem sampleCommit_accepted (nonce : ℕ) :
    step idealCrypto sampleImmutables (sampleMigration nonce 0 0 false) (sampleCommit nonce) =
      some (sampleMigration (nonce + 1) 7 1000 true) := by
  simp only [sampleCommit, step, toOption_eq_some, exec, onBridge_ok, commitMigration, bind_eq_ok,
    require_eq_ok, pure_eq_ok, exists_unit, governance_ok, orFail_eq_ok, now64]
  refine ⟨_, ⟨rfl, rfl, ⟨rfl, rfl⟩, by decide, ⟨by decide, by decide⟩, _,
    ⟨⟨rfl, authorize_samplePair (by decide) rfl rfl rfl⟩, rfl⟩, 2, rfl, rfl,
    bridgeProtocolId idealCrypto, rfl, rfl, 1000, ⟨by decide, rfl⟩, rfl⟩, rfl⟩

theorem sampleVeto_accepted (nonce : ℕ) :
    exec idealCrypto sampleImmutables (sampleMigration nonce 7 1000 true) (sampleEnv 201)
      .vetoMigration = .ok (sampleMigration nonce 0 0 false) := rfl

theorem sampleFinalize_accepted :
    ∃ w', exec idealCrypto sampleImmutables (sampleMigration 2 7 1000 true) (sampleEnv 9)
      (.finalizeMigration 2 5000 sampleFinalizeSignatures) = .ok w' := by
  simp only [sampleFinalizeSignatures, exec, finalizeMigration, bind_eq_ok, require_eq_ok,
    pure_eq_ok, exists_unit, governance_ok]
  exact ⟨_, rfl, rfl, ⟨rfl, rfl⟩, _, ⟨⟨rfl, authorize_samplePair (by decide) rfl rfl rfl⟩, rfl⟩,
    _, rfl, rfl⟩

/-- Commit at nonce 0, veto, commit again at nonce 1. -/
theorem sampleRun_final :
    Run.final (step idealCrypto sampleImmutables) sampleWorld [sampleCommit 0] =
      sampleMigration 1 7 1000 true ∧
    Run.final (step idealCrypto sampleImmutables) sampleWorld
      [sampleCommit 0, sampleVeto, sampleCommit 1] = sampleMigration 2 7 1000 true := by
  have hveto : step idealCrypto sampleImmutables (sampleMigration 1 7 1000 true) sampleVeto =
      some (sampleMigration 1 0 0 false) := by
    rw [sampleVeto, step, sampleVeto_accepted]
    rfl
  have hstart : sampleWorld = sampleMigration 0 0 0 false := rfl
  simp only [Run.final_cons, Run.final_nil, hstart, Run.advance_of_some (sampleCommit_accepted _),
    Run.advance_of_some hveto, and_self]

/-- The veto does not spend a nonce. A finalization signed before it for the
nonce after the next commitment is accepted once that commitment is made. -/
theorem presigned_finalize_survives_veto :
    ¬ ∀ (pre mid : List (Op (Address × Word))) (env env' env'' : CallEnv) (nonce expiry : ℕ)
        (signatures : List (Address × Word)) (v w' : World),
      exec idealCrypto sampleImmutables (Run.final (step idealCrypto sampleImmutables) sampleWorld
        pre) env .vetoMigration = .ok v →
      Gathered idealCrypto sampleImmutables (Run.final (step idealCrypto sampleImmutables)
        sampleWorld pre).bridge env' nonce expiry signatures →
      exec idealCrypto sampleImmutables (Run.final (step idealCrypto sampleImmutables) sampleWorld
        (pre ++ .call env .vetoMigration :: mid)) env''
        (.finalizeMigration nonce expiry signatures) ≠ .ok w' := by
  intro hclaim
  obtain ⟨w', hfinalize⟩ := sampleFinalize_accepted
  refine hclaim [sampleCommit 0] [sampleCommit 1] (sampleEnv 201) (sampleEnv 9) (sampleEnv 9)
    2 5000 sampleFinalizeSignatures (sampleMigration 1 0 0 false) w' ?_ ?_ ?_
  · rw [sampleRun_final.1]
    exact sampleVeto_accepted 1
  · rw [sampleRun_final.1]
    exact authorize_samplePair (by decide) rfl rfl rfl
  · have hrun := sampleRun_final.2
    simp only [sampleVeto] at hrun
    rw [List.singleton_append, hrun]
    exact hfinalize

theorem migration_of_run_sample :
    ∃ w', exec idealCrypto sampleImmutables (Run.final (step idealCrypto sampleImmutables)
        sampleWorld [sampleCommit 0, sampleVeto, sampleCommit 1]) (sampleEnv 9)
        (.finalizeMigration 2 5000 sampleFinalizeSignatures) = .ok w' ∧
      (Run.final (step idealCrypto sampleImmutables) sampleWorld
        [sampleCommit 0]).bridge.governanceNonce < 2 ∧
      ∃ successor n w₁ mid, Standing idealCrypto sampleImmutables sampleWorld
          [sampleCommit 0, sampleVeto, sampleCommit 1] successor n w₁ mid ∧ n < 2 ∧
        Finalized sampleImmutables (Run.final (step idealCrypto sampleImmutables) sampleWorld
          [sampleCommit 0, sampleVeto, sampleCommit 1]) successor w' := by
  obtain ⟨w', hfinalize⟩ := sampleFinalize_accepted
  rw [← sampleRun_final.2] at hfinalize
  obtain ⟨hstanding, -, hveto⟩ := (migration_of_run sampleWorld_constructed
    [sampleCommit 0, sampleVeto, sampleCommit 1]).2 _ _ _ _ _ hfinalize
  refine ⟨w', hfinalize, ?_, hstanding⟩
  refine hveto [sampleCommit 0] (sampleEnv 201) [sampleCommit 1] (sampleMigration 1 0 0 false)
    rfl ?_
  rw [sampleRun_final.1]
  exact sampleVeto_accepted 1

end Evm
