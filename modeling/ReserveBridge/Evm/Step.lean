-- SUMMARY: What an accepted call of the Robinhood reserve contract can do: one constructor per entry point with its guards and its effect, and the inversion of the transition function into it.
import ReserveBridge.Evm.Bridge

/-!
# Accepted calls

`Effect C I w env c w'` lists, entry point by entry point, what is known when
the call `c` was accepted in `w` and led to `w'`. The invariants of the
contract are proved by cases on it and never unfold an entry point.
-/

namespace Evm
open Guard

variable {Sig : Type} {C : Crypto Sig} {I : Immutables}

/-! ## Helpers -/

theorem Erc20.transfer_ok {t t' : Erc20} {src dst : Address} {amount : ℕ}
    (h : t.transfer src dst amount = .ok t') :
    dst ≠ 0 ∧ amount ≤ t.balanceOf src ∧
      (∀ a, t'.balanceOf a + (if a = src then amount else 0) =
        t.balanceOf a + (if a = dst then amount else 0)) := by
  simp only [Erc20.transfer, bind_eq_ok, require_eq_ok, pure_eq_ok, exists_unit] at h
  obtain ⟨hdst, hle, rfl⟩ := h
  refine ⟨hdst, hle, fun a => ?_⟩
  -- the debit and the credit may fall on the same account
  by_cases hd : a = dst <;> by_cases hs : a = src
  · subst hd hs
    simp
    omega
  · subst hd
    simp [hs]
  · subst hs
    simp [hd]
    omega
  · simp [hd, hs]

/-- A transfer costs the sender at most the amount. -/
theorem Erc20.transfer_src {t t' : Erc20} {src dst : Address} {amount : ℕ}
    (h : t.transfer src dst amount = .ok t') :
    t.balanceOf src ≤ t'.balanceOf src + amount := by
  have hbal := (Erc20.transfer_ok h).2.2 src
  simp only [if_true] at hbal
  omega

/-- The quorum approved `action` with `payload` under the next nonce. -/
def Governed (C : Crypto Sig) (I : Immutables) (s : Storage) (env : CallEnv) (action : ℕ)
    (payload : List Word) (nonce expiry : ℕ) (signatures : List Sig) : Prop :=
  nonce = s.governanceNonce ∧
    authorize C I s env (governanceStructHash C action (C.keccak256 (.encode payload))
      s.signerEpoch nonce expiry) s.signerEpoch expiry signatures = .ok ()

theorem governance_ok {s s' : Storage} {env : CallEnv} {action nonce expiry : ℕ}
    {payload : List Word} {signatures : List Sig} :
    governance C I s env action payload nonce expiry signatures = .ok s' ↔
    Governed C I s env action payload nonce expiry signatures ∧
    s' = { s with governanceNonce := s.governanceNonce + 1 } := by
  simp only [governance, Governed, bind_eq_ok, require_eq_ok, pure_eq_ok, exists_unit]
  constructor
  · rintro ⟨rfl, hauth, rfl⟩
    exact ⟨⟨rfl, hauth⟩, rfl⟩
  · rintro ⟨⟨rfl, hauth⟩, rfl⟩
    exact ⟨rfl, hauth, rfl⟩

/-- The state after a request key was spent. -/
def Storage.spend (s : Storage) (key : Word) : Storage :=
  { s with executedRequest := Function.update s.executedRequest key true }

theorem consumeRequest_ok {s s' : Storage} {action requestId : ℕ} :
    consumeRequest C s action requestId = .ok s' ↔
    s.executedRequest (requestKey C action requestId) = false ∧
    s' = s.spend (requestKey C action requestId) := by
  simp only [consumeRequest, Storage.spend, bind_eq_ok, require_eq_ok, pure_eq_ok, exists_unit]
  exact and_congr_right fun _ => eq_comm

/-- The state after a deposit booked the obligation `ob`. -/
def Storage.openObligation (s : Storage) (window : Window) (ob : Obligation) : Storage :=
  setObligation { s with
    inboundWindow := window
    obligationCount := s.obligationCount + 1
    outstandingRefundableCount := s.outstandingRefundableCount + 1
    outstandingRefundablePrincipal := s.outstandingRefundablePrincipal + ob.amount }
    s.obligationCount ob

/-- The state after an obligation left `pending` for `status`. -/
def Storage.close (s : Storage) (index : ℕ) (status : ObligationStatus) : Storage :=
  { s with
    obligations := Function.update s.obligations index
      { s.obligations index with status := status }
    outstandingRefundableCount := s.outstandingRefundableCount - 1
    outstandingRefundablePrincipal :=
      s.outstandingRefundablePrincipal - (s.obligations index).amount }

theorem releaseLiability_ok {s s' : Storage} {amount : ℕ} :
    releaseLiability s amount = .ok s' ↔
    (1 ≤ s.outstandingRefundableCount ∧ amount ≤ s.outstandingRefundablePrincipal) ∧
    s' = { s with
      outstandingRefundableCount := s.outstandingRefundableCount - 1
      outstandingRefundablePrincipal := s.outstandingRefundablePrincipal - amount } := by
  simp only [releaseLiability, bind_eq_ok, checkedSub_eq_ok, pure_eq_ok]
  constructor
  · rintro ⟨count, ⟨hcount, rfl⟩, principal, ⟨hprincipal, rfl⟩, rfl⟩
    exact ⟨⟨hcount, hprincipal⟩, rfl⟩
  · rintro ⟨⟨hcount, hprincipal⟩, rfl⟩
    exact ⟨_, ⟨hcount, rfl⟩, _, ⟨hprincipal, rfl⟩, rfl⟩

theorem requireSpendableReserve_ok {w : World} {amount protectedMinReserve : ℕ} {u : Unit}
    (h : requireSpendableReserve I w amount protectedMinReserve = .ok u) :
    amount + protectedMinReserve + w.bridge.outstandingRefundablePrincipal ≤
      w.token.balanceOf I.self := by
  simp only [requireSpendableReserve, bind_eq_ok, require_eq_ok, exists_unit] at h
  omega

theorem authorize_ok {s : Storage} {env : CallEnv} {structHash epoch expiry : ℕ}
    {signatures : List Sig} {u : Unit}
    (h : authorize C I s env structHash epoch expiry signatures = .ok u) :
    env.timestamp ≤ expiry ∧ epoch = s.signerEpoch ∧
    ∃ sig₀ sig₁ first second, signatures = [sig₀, sig₁] ∧
      C.recover (hashTypedData C I structHash) sig₀ = some first ∧
      C.recover (hashTypedData C I structHash) sig₁ = some second ∧
      s.isSigner first = true ∧ s.isSigner second = true ∧ first ≠ second := by
  simp only [authorize, bind_eq_ok, require_eq_ok, exists_unit] at h
  obtain ⟨hexpiry, hepoch, h⟩ := h
  refine ⟨hexpiry, hepoch, ?_⟩
  split at h
  case h_1 sig₀ sig₁ =>
    simp only [bind_eq_ok, orFail_eq_ok, require_eq_ok, exists_unit] at h
    obtain ⟨first, hfirst, hsigner₀, second, hsecond, hsigner₁, hne⟩ := h
    exact ⟨sig₀, sig₁, first, second, rfl, hfirst, hsecond, hsigner₀, hsigner₁, hne⟩
  case h_2 => simp at h

theorem requireRouteOpen_ok {s : Storage} {route : ℕ} {inbound : Bool} {u : Unit}
    (h : requireRouteOpen s route inbound = .ok u) :
    (if inbound then s.depositsPaused else s.payoutsPaused) = false ∧
      s.routeEnabled route = true := by
  cases inbound <;>
    simpa [requireRouteOpen] using h

/-! ## Effects -/

/-- An obligation that is pending and whose amount the two counters cover. -/
structure Releasable (s : Storage) (index : ℕ) : Prop where
  exists_ : index < s.obligationCount
  pending : (s.obligations index).status = .pending
  counted : 1 ≤ s.outstandingRefundableCount
  covered : (s.obligations index).amount ≤ s.outstandingRefundablePrincipal

/-- What is known of an accepted call. The signed calls say which struct hash
the signatures were checked against. -/
inductive Effect (C : Crypto Sig) (I : Immutables) (w : World) (env : CallEnv) :
    Call Sig → World → Prop
  | deposit {route amount : ℕ} {destination : List UInt8} {window : Window} {token : Erc20}
      (live : w.bridge.migrated = false) (uncommitted : w.bridge.migrationCommitted = false)
      (unpaused : w.bridge.depositsPaused = false)
      (credit : token.balanceOf I.self = w.token.balanceOf I.self + amount) :
      Effect C I w env (.deposit route amount destination)
        ⟨w.bridge.openObligation window ⟨env.sender, .pending, route, amount⟩, token⟩
  | executePayout {req : PayoutRequest} {signatures : List Sig} {source dest : ℕ}
      {window : Window} {token : Erc20}
      (live : w.bridge.migrated = false) (unpaused : w.bridge.payoutsPaused = false)
      (legs : routeLegs I req.route = .ok (source, dest, false))
      (signed : authorize C I w.bridge env (payoutStructHash C I req source dest)
        req.signerEpoch req.expiry signatures = .ok ())
      (fresh : w.bridge.executedRequest (requestKey C actionPayout req.requestId) = false)
      (floor : w.bridge.limits.protectedMinReserve + w.bridge.outstandingRefundablePrincipal ≤
        token.balanceOf I.self) :
      Effect C I w env (.executePayout req signatures)
        ⟨{ w.bridge.spend (requestKey C actionPayout req.requestId) with
          outboundWindow := window }, token⟩
  | executeTreasuryWithdraw {req : TreasuryWithdrawRequest} {signatures : List Sig}
      {token : Erc20}
      (live : w.bridge.migrated = false)
      (signed : authorize C I w.bridge env (treasuryWithdrawStructHash C I req)
        req.signerEpoch req.expiry signatures = .ok ())
      (fresh : w.bridge.executedRequest
        (requestKey C actionTreasuryWithdraw req.requestId) = false)
      (floor : w.bridge.limits.protectedMinReserve + w.bridge.outstandingRefundablePrincipal ≤
        token.balanceOf I.self) :
      Effect C I w env (.executeTreasuryWithdraw req signatures)
        ⟨w.bridge.spend (requestKey C actionTreasuryWithdraw req.requestId), token⟩
  | executeRefund {req : RefundRequest} {signatures : List Sig} {source dest : ℕ}
      {inbound : Bool} {token : Erc20}
      (live : w.bridge.migrated = false)
      (pending : Releasable w.bridge req.obligationIndex)
      (recipient : req.recipient = (w.bridge.obligations req.obligationIndex).depositor)
      (amount : req.amount = (w.bridge.obligations req.obligationIndex).amount)
      (legs : routeLegs I (w.bridge.obligations req.obligationIndex).route =
        .ok (source, dest, inbound))
      (signed : authorize C I w.bridge env (refundStructHash C I req
        (w.bridge.obligations req.obligationIndex).route source dest)
        req.signerEpoch req.expiry signatures = .ok ())
      (fresh : w.bridge.executedRequest (requestKey C actionRefund req.requestId) = false)
      (paid : w.token.transfer I.self req.recipient req.amount = .ok token) :
      Effect C I w env (.executeRefund req signatures)
        ⟨(w.bridge.spend (requestKey C actionRefund req.requestId)).close
          req.obligationIndex .refunded, token⟩
  | executeSettlement {req : SettlementRequest} {signatures : List Sig} {source dest : ℕ}
      {inbound : Bool}
      (live : w.bridge.migrated = false)
      (pending : Releasable w.bridge req.obligationIndex)
      (legs : routeLegs I (w.bridge.obligations req.obligationIndex).route =
        .ok (source, dest, inbound))
      (signed : authorize C I w.bridge env (settlementStructHash C req
        (w.bridge.obligations req.obligationIndex).route source dest)
        req.signerEpoch req.expiry signatures = .ok ())
      (fresh : w.bridge.executedRequest (requestKey C actionSettle req.requestId) = false) :
      Effect C I w env (.executeSettlement req signatures)
        ⟨(w.bridge.spend (requestKey C actionSettle req.requestId)).close
          req.obligationIndex .settled, w.token⟩
  | executeAbandonment {req : AbandonmentRequest} {signatures : List Sig} {source dest : ℕ}
      {inbound : Bool}
      (live : w.bridge.migrated = false)
      (pending : Releasable w.bridge req.obligationIndex)
      (legs : routeLegs I (w.bridge.obligations req.obligationIndex).route =
        .ok (source, dest, inbound))
      (signed : authorize C I w.bridge env (abandonmentStructHash C req
        (w.bridge.obligations req.obligationIndex).route source dest)
        req.signerEpoch req.expiry signatures = .ok ())
      (fresh : w.bridge.executedRequest (requestKey C actionAbandon req.requestId) = false) :
      Effect C I w env (.executeAbandonment req signatures)
        ⟨(w.bridge.spend (requestKey C actionAbandon req.requestId)).close
          req.obligationIndex .abandoned, w.token⟩
  | guardianPause {pauseDeposits pausePayouts : Bool}
      (guardian : w.bridge.isGuardian env.sender = true) :
      Effect C I w env (.guardianPause pauseDeposits pausePayouts)
        ⟨{ w.bridge with
          depositsPaused := pauseDeposits || w.bridge.depositsPaused
          payoutsPaused := pausePayouts || w.bridge.payoutsPaused }, w.token⟩
  | setPaused {depositsPaused payoutsPaused : Bool} {nonce expiry : ℕ} {signatures : List Sig}
      (live : w.bridge.migrated = false)
      (frozen : w.bridge.migrationCommitted = true → depositsPaused = true ∧ payoutsPaused = true)
      (signed : Governed C I w.bridge env actionSetPause
        [depositsPaused.toNat, payoutsPaused.toNat] nonce expiry signatures) :
      Effect C I w env (.setPaused depositsPaused payoutsPaused nonce expiry signatures)
        ⟨{ w.bridge with
          governanceNonce := w.bridge.governanceNonce + 1
          depositsPaused := depositsPaused
          payoutsPaused := payoutsPaused }, w.token⟩
  | setRouteEnabled {route : ℕ} {enabled : Bool} {nonce expiry : ℕ} {signatures : List Sig}
      (live : w.bridge.migrated = false)
      (frozen : w.bridge.migrationCommitted = true → enabled = false)
      (signed : Governed C I w.bridge env actionSetRouteEnabled [route, enabled.toNat] nonce
        expiry signatures) :
      Effect C I w env (.setRouteEnabled route enabled nonce expiry signatures)
        ⟨{ w.bridge with
          governanceNonce := w.bridge.governanceNonce + 1
          routeEnabled := Function.update w.bridge.routeEnabled route enabled }, w.token⟩
  | rotateSigners {newSigners : Triple} {nonce expiry : ℕ} {signatures : List Sig}
      (live : w.bridge.migrated = false)
      (signed : Governed C I w.bridge env actionRotateSigners newSigners.toList nonce expiry
        signatures) :
      Effect C I w env (.rotateSigners newSigners nonce expiry signatures)
        ⟨{ w.bridge with
          governanceNonce := w.bridge.governanceNonce + 1
          signers := newSigners
          isSigner := mark (mark w.bridge.isSigner w.bridge.signers false) newSigners true
          signerEpoch := w.bridge.signerEpoch + 1 }, w.token⟩
  | rotateGuardians {newGuardians : Triple} {nonce expiry : ℕ} {signatures : List Sig}
      (live : w.bridge.migrated = false)
      (signed : Governed C I w.bridge env actionRotateGuardians newGuardians.toList nonce expiry
        signatures) :
      Effect C I w env (.rotateGuardians newGuardians nonce expiry signatures)
        ⟨{ w.bridge with
          governanceNonce := w.bridge.governanceNonce + 1
          guardians := newGuardians
          isGuardian := mark (mark w.bridge.isGuardian w.bridge.guardians false) newGuardians true
          }, w.token⟩
  | setLimits {newLimits : Limits} {nonce expiry : ℕ} {signatures : List Sig}
      (live : w.bridge.migrated = false)
      (signed : Governed C I w.bridge env actionSetLimits newLimits.words nonce expiry
        signatures) :
      Effect C I w env (.setLimits newLimits nonce expiry signatures)
        ⟨{ w.bridge with
          governanceNonce := w.bridge.governanceNonce + 1
          limits := newLimits }, w.token⟩
  | commitMigration {successor : Address} {nonce expiry committedAt : ℕ} {signatures : List Sig}
      (live : w.bridge.migrated = false) (uncommitted : w.bridge.migrationCommitted = false)
      (paused : w.bridge.depositsPaused = true ∧ w.bridge.payoutsPaused = true)
      (successor_ne : successor ≠ I.self)
      (signed : Governed C I w.bridge env actionCommitMigration [successor] nonce expiry
        signatures) :
      Effect C I w env (.commitMigration successor nonce expiry signatures)
        ⟨{ w.bridge with
          governanceNonce := w.bridge.governanceNonce + 1
          migrationSuccessor := successor
          migrationCommittedAt := committedAt
          migrationCommitted := true }, w.token⟩
  | finalizeMigration {nonce expiry : ℕ} {signatures : List Sig} {token : Erc20}
      (live : w.bridge.migrated = false) (committed : w.bridge.migrationCommitted = true)
      (drained : w.bridge.outstandingRefundableCount = 0 ∧
        w.bridge.outstandingRefundablePrincipal = 0)
      (signed : Governed C I w.bridge env actionFinalizeMigration
        [w.bridge.migrationSuccessor] nonce expiry signatures)
      (swept : sweepReserve I w.token w.bridge.migrationSuccessor = .ok token) :
      Effect C I w env (.finalizeMigration nonce expiry signatures)
        ⟨{ w.bridge with
          governanceNonce := w.bridge.governanceNonce + 1
          migrated := true }, token⟩
  | vetoMigration
      (guardian : w.bridge.isGuardian env.sender = true)
      (live : w.bridge.migrated = false) (committed : w.bridge.migrationCommitted = true) :
      Effect C I w env .vetoMigration
        ⟨{ w.bridge with
          migrationSuccessor := 0, migrationCommittedAt := 0, migrationCommitted := false },
          w.token⟩

/-! ## Inversion of the entry points -/

variable {w w' : World} {env : CallEnv} {nonce expiry : ℕ} {signatures : List Sig}

theorem requireOpenPayoutRoute_ok {s : Storage} {route : ℕ} {legs : ℕ × ℕ}
    (h : requireOpenPayoutRoute I s route = .ok legs) :
    routeLegs I route = .ok (legs.1, legs.2, false) ∧ s.payoutsPaused = false := by
  simp only [requireOpenPayoutRoute, bind_eq_ok, require_eq_ok, pure_eq_ok, exists_unit] at h
  obtain ⟨⟨source, dest, inbound⟩, hlegs, rfl, hopen, rfl⟩ := h
  exact ⟨hlegs, by simpa using (requireRouteOpen_ok hopen).1⟩

theorem deposit_effect {route amount : ℕ} {destination : List UInt8} {r : ℕ × World}
    (h : deposit I w env route amount destination = .ok r) :
    Effect C I w env (.deposit route amount destination) r.2 := by
  simp only [deposit, bind_eq_ok, require_eq_ok, pure_eq_ok, exists_unit, checkedSub_eq_ok,
    checkedAdd_eq_ok] at h
  obtain ⟨hlive, huncommitted, ⟨_, _, inbound⟩, _, rfl, hopen, _, _, _, _, window, _, token, htoken,
    received, ⟨hle, rfl⟩, hexact, _, ⟨_, rfl⟩, rfl⟩ := h
  -- the contract measures what it received, so the credit is exact
  have hcredit : token.balanceOf I.self = w.token.balanceOf I.self + amount := by omega
  exact .deposit hlive huncommitted (by simpa using (requireRouteOpen_ok hopen).1) hcredit

theorem executePayout_effect {req : PayoutRequest}
    (h : executePayout C I w env req signatures = .ok w') :
    Effect C I w env (.executePayout req signatures) w' := by
  simp only [executePayout, bind_eq_ok, require_eq_ok, pure_eq_ok, exists_unit,
    consumeRequest_ok] at h
  obtain ⟨hlive, ⟨source, dest⟩, hroute, _, _, _, _, hreserve, hauth, _, ⟨hfresh, rfl⟩, window, _,
    token, htoken, rfl⟩ := h
  obtain ⟨hlegs, hunpaused⟩ := requireOpenPayoutRoute_ok hroute
  have hspendable := requireSpendableReserve_ok hreserve
  have hsrc := Erc20.transfer_src htoken
  exact .executePayout hlive hunpaused hlegs hauth hfresh (by omega)

theorem executeTreasuryWithdraw_effect {req : TreasuryWithdrawRequest}
    (h : executeTreasuryWithdraw C I w env req signatures = .ok w') :
    Effect C I w env (.executeTreasuryWithdraw req signatures) w' := by
  simp only [executeTreasuryWithdraw, bind_eq_ok, require_eq_ok, pure_eq_ok, exists_unit,
    consumeRequest_ok, checkedSub_eq_ok] at h
  obtain ⟨hlive, _, _, _, _, hreserve, hauth, _, ⟨hfresh, rfl⟩, token, htoken, _, _, _, _, _, _,
    rfl⟩ := h
  have hspendable := requireSpendableReserve_ok hreserve
  have hsrc := Erc20.transfer_src htoken
  exact .executeTreasuryWithdraw hlive hauth hfresh (by omega)

/-- The three exits write the obligation, spend the request key and release the
liability in the same way. -/
theorem close_of_releaseLiability {s s₂ : Storage} {key : Word} {index amount : ℕ}
    {status : ObligationStatus} (hlt : index < s.obligationCount)
    (hpending : (s.obligations index).status = .pending)
    (hamount : amount = (s.obligations index).amount)
    (h : releaseLiability (setObligation (s.spend key) index
      { s.obligations index with status := status }) amount = .ok s₂) :
    Releasable s index ∧ s₂ = (s.spend key).close index status := by
  subst hamount
  rw [releaseLiability_ok] at h
  obtain ⟨⟨hcount, hprincipal⟩, rfl⟩ := h
  exact ⟨⟨hlt, hpending, hcount, hprincipal⟩, rfl⟩

theorem executeRefund_effect {req : RefundRequest}
    (h : executeRefund C I w env req signatures = .ok w') :
    Effect C I w env (.executeRefund req signatures) w' := by
  simp only [executeRefund, bind_eq_ok, require_eq_ok, pure_eq_ok, exists_unit,
    consumeRequest_ok] at h
  obtain ⟨hlive, hlt, hpending, hrecipient, hamount, ⟨source, dest, inbound⟩, hlegs, hauth, _,
    ⟨hfresh, rfl⟩, s₂, hrelease, token, htoken, rfl⟩ := h
  obtain ⟨hreleasable, rfl⟩ := close_of_releaseLiability hlt hpending hamount hrelease
  exact .executeRefund hlive hreleasable hrecipient hamount hlegs hauth hfresh htoken

theorem executeSettlement_effect {req : SettlementRequest}
    (h : executeSettlement C I w env req signatures = .ok w') :
    Effect C I w env (.executeSettlement req signatures) w' := by
  simp only [executeSettlement, bind_eq_ok, require_eq_ok, pure_eq_ok, exists_unit,
    consumeRequest_ok] at h
  obtain ⟨hlive, hlt, hpending, ⟨source, dest, inbound⟩, hlegs, hauth, _, ⟨hfresh, rfl⟩, s₂,
    hrelease, rfl⟩ := h
  obtain ⟨hreleasable, rfl⟩ := close_of_releaseLiability hlt hpending rfl hrelease
  exact .executeSettlement hlive hreleasable hlegs hauth hfresh

theorem executeAbandonment_effect {req : AbandonmentRequest}
    (h : executeAbandonment C I w env req signatures = .ok w') :
    Effect C I w env (.executeAbandonment req signatures) w' := by
  simp only [executeAbandonment, bind_eq_ok, require_eq_ok, pure_eq_ok, exists_unit,
    consumeRequest_ok] at h
  obtain ⟨hlive, hlt, hpending, ⟨source, dest, inbound⟩, hlegs, hauth, _, ⟨hfresh, rfl⟩, s₂,
    hrelease, rfl⟩ := h
  obtain ⟨hreleasable, rfl⟩ := close_of_releaseLiability hlt hpending rfl hrelease
  exact .executeAbandonment hlive hreleasable hlegs hauth hfresh

@[simp] theorem onBridge_ok {r : Except Revert Storage} :
    onBridge w r = .ok w' ↔ ∃ s, r = .ok s ∧ w' = ⟨s, w.token⟩ := by
  rw [onBridge, map_eq_ok]
  exact exists_congr fun s => and_congr_right fun _ => eq_comm

section Storage

variable {s : Storage}

theorem guardianPause_effect {pauseDeposits pausePayouts : Bool}
    (h : guardianPause w.bridge env pauseDeposits pausePayouts = .ok s) :
    Effect C I w env (.guardianPause pauseDeposits pausePayouts) ⟨s, w.token⟩ := by
  simp only [guardianPause, bind_eq_ok, require_eq_ok, pure_eq_ok, exists_unit] at h
  obtain ⟨hguardian, _, rfl⟩ := h
  exact .guardianPause hguardian

theorem setPaused_effect {depositsPaused payoutsPaused : Bool}
    (h : setPaused C I w.bridge env depositsPaused payoutsPaused nonce expiry signatures = .ok s) :
    Effect C I w env (.setPaused depositsPaused payoutsPaused nonce expiry signatures)
      ⟨s, w.token⟩ := by
  simp only [setPaused, bind_eq_ok, require_eq_ok, pure_eq_ok, exists_unit, governance_ok] at h
  obtain ⟨hlive, hfrozen, _, ⟨hsigned, rfl⟩, rfl⟩ := h
  exact .setPaused hlive hfrozen hsigned

theorem setRouteEnabled_effect {route : ℕ} {enabled : Bool}
    (h : setRouteEnabled C I w.bridge env route enabled nonce expiry signatures = .ok s) :
    Effect C I w env (.setRouteEnabled route enabled nonce expiry signatures) ⟨s, w.token⟩ := by
  simp only [setRouteEnabled, bind_eq_ok, require_eq_ok, pure_eq_ok, exists_unit,
    governance_ok] at h
  obtain ⟨hlive, hfrozen, _, _, _, ⟨hsigned, rfl⟩, rfl⟩ := h
  exact .setRouteEnabled hlive hfrozen hsigned

theorem rotateSigners_effect {newSigners : Triple}
    (h : rotateSigners C I w.bridge env newSigners nonce expiry signatures = .ok s) :
    Effect C I w env (.rotateSigners newSigners nonce expiry signatures) ⟨s, w.token⟩ := by
  simp only [rotateSigners, installSigners, bind_eq_ok, require_eq_ok, pure_eq_ok, exists_unit,
    governance_ok, checkedAdd_eq_ok] at h
  obtain ⟨hlive, _, ⟨hsigned, rfl⟩, _, ⟨_, rfl⟩, _, ⟨_, rfl⟩, rfl⟩ := h
  exact .rotateSigners hlive hsigned

theorem rotateGuardians_effect {newGuardians : Triple}
    (h : rotateGuardians C I w.bridge env newGuardians nonce expiry signatures = .ok s) :
    Effect C I w env (.rotateGuardians newGuardians nonce expiry signatures) ⟨s, w.token⟩ := by
  simp only [rotateGuardians, installGuardians, bind_eq_ok, require_eq_ok, pure_eq_ok,
    exists_unit, governance_ok] at h
  obtain ⟨hlive, _, ⟨hsigned, rfl⟩, _, rfl⟩ := h
  exact .rotateGuardians hlive hsigned

theorem setLimits_effect {newLimits : Limits}
    (h : setLimits C I w.bridge env newLimits nonce expiry signatures = .ok s) :
    Effect C I w env (.setLimits newLimits nonce expiry signatures) ⟨s, w.token⟩ := by
  simp only [setLimits, bind_eq_ok, require_eq_ok, pure_eq_ok, exists_unit, governance_ok] at h
  obtain ⟨hlive, _, ⟨hsigned, rfl⟩, _, rfl⟩ := h
  exact .setLimits hlive hsigned

theorem commitMigration_effect {successor : Address}
    (h : commitMigration C I w.bridge env successor nonce expiry signatures = .ok s) :
    Effect C I w env (.commitMigration successor nonce expiry signatures) ⟨s, w.token⟩ := by
  simp only [commitMigration, bind_eq_ok, require_eq_ok, pure_eq_ok, exists_unit, governance_ok,
    orFail_eq_ok] at h
  obtain ⟨hlive, huncommitted, hpaused, _, ⟨hself, _⟩, _, ⟨hsigned, rfl⟩, _, _, _, _, _, _, _, _,
    rfl⟩ := h
  exact .commitMigration hlive huncommitted hpaused hself hsigned

theorem vetoMigration_effect (h : vetoMigration w.bridge env = .ok s) :
    Effect C I w env .vetoMigration ⟨s, w.token⟩ := by
  simp only [vetoMigration, bind_eq_ok, require_eq_ok, pure_eq_ok, exists_unit] at h
  obtain ⟨hguardian, hlive, hcommitted, rfl⟩ := h
  exact .vetoMigration hguardian hlive hcommitted

end Storage

theorem finalizeMigration_effect
    (h : finalizeMigration C I w env nonce expiry signatures = .ok w') :
    Effect C I w env (.finalizeMigration nonce expiry signatures) w' := by
  simp only [finalizeMigration, bind_eq_ok, require_eq_ok, pure_eq_ok, exists_unit,
    governance_ok] at h
  obtain ⟨hlive, hcommitted, hdrained, _, ⟨hsigned, rfl⟩, token, htoken, rfl⟩ := h
  exact .finalizeMigration hlive hcommitted hdrained hsigned htoken

theorem construct_ok {decimals : ℕ} {signers guardians : Triple} {limits : Limits}
    {token₀ : Erc20} (h : construct I env decimals signers guardians limits token₀ = .ok w) :
    w = ⟨{ Storage.blank with
      signers := signers
      isSigner := mark (fun _ => false) signers true
      guardians := guardians
      isGuardian := mark (fun _ => false) guardians true
      limits := limits
      depositsPaused := true
      payoutsPaused := true
      inboundWindow := ⟨env.timestamp, 0⟩
      outboundWindow := ⟨env.timestamp, 0⟩ }, token₀⟩ := by
  simp only [construct, installSigners, installGuardians, now64, bind_eq_ok, require_eq_ok,
    pure_eq_ok, exists_unit] at h
  obtain ⟨_, _, _, _, _, _, _, ⟨_, rfl⟩, _, ⟨_, rfl⟩, _, _, ⟨_, rfl⟩, rfl⟩ := h
  rfl

/-- Every accepted call has the effect of its entry point. -/
theorem Effect.of_exec {c : Call Sig} (h : exec C I w env c = .ok w') :
    Effect C I w env c w' := by
  cases c with
  | deposit route amount destination =>
    obtain ⟨r, hr, rfl⟩ := map_eq_ok.mp h
    exact deposit_effect hr
  | executePayout req signatures => exact executePayout_effect h
  | executeTreasuryWithdraw req signatures => exact executeTreasuryWithdraw_effect h
  | executeRefund req signatures => exact executeRefund_effect h
  | executeSettlement req signatures => exact executeSettlement_effect h
  | executeAbandonment req signatures => exact executeAbandonment_effect h
  | finalizeMigration nonce expiry signatures => exact finalizeMigration_effect h
  | guardianPause =>
    obtain ⟨s, hs, rfl⟩ := onBridge_ok.mp h
    exact guardianPause_effect hs
  | setPaused =>
    obtain ⟨s, hs, rfl⟩ := onBridge_ok.mp h
    exact setPaused_effect hs
  | setRouteEnabled =>
    obtain ⟨s, hs, rfl⟩ := onBridge_ok.mp h
    exact setRouteEnabled_effect hs
  | rotateSigners =>
    obtain ⟨s, hs, rfl⟩ := onBridge_ok.mp h
    exact rotateSigners_effect hs
  | rotateGuardians =>
    obtain ⟨s, hs, rfl⟩ := onBridge_ok.mp h
    exact rotateGuardians_effect hs
  | setLimits =>
    obtain ⟨s, hs, rfl⟩ := onBridge_ok.mp h
    exact setLimits_effect hs
  | commitMigration =>
    obtain ⟨s, hs, rfl⟩ := onBridge_ok.mp h
    exact commitMigration_effect hs
  | vetoMigration =>
    obtain ⟨s, hs, rfl⟩ := onBridge_ok.mp h
    exact vetoMigration_effect hs

/-- An accepted event is a call with its effect, or third parties acting on the
token without taking anything from the contract. -/
theorem step_cases {op : Op Sig} (h : step C I w op = some w') :
    (∃ env c, op = .call env c ∧ exec C I w env c = .ok w' ∧ Effect C I w env c w') ∨
    (∃ token, op = .thirdParty token ∧ w.token.balanceOf I.self ≤ token.balanceOf I.self ∧
      w' = { w with token }) := by
  cases op with
  | call env c =>
    have hexec : exec C I w env c = .ok w' := by simpa [step] using h
    exact .inl ⟨env, c, rfl, hexec, .of_exec hexec⟩
  | thirdParty token =>
    simp only [step] at h
    split_ifs at h with hle
    exact .inr ⟨token, rfl, hle, (Option.some.inj h).symm⟩

end Evm
