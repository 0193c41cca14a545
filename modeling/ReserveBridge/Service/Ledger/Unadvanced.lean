-- SUMMARY: Requests that never went toward their destination: what keeps one so, the one way on from there, and what the callers of unguarded transactions looked at before.
import ReserveBridge.Service.Ledger.Effects

/-!
# Requests that never advanced

A parked request is paid only after it was resumed. Some transactions of the
destination leg do not look at the state of the request, since their callers
did. With what the callers looked at, the way on is a finalized Goldcoin deposit
or a resumption, and no other.
-/

namespace Service
open Guard

/-! ## What callers look at -/

/-- What the callers of a transaction saw of the row, at that time or before. A
payout is begun for a request that was read in `sourceFinalized`, and it is a
payout that settles one. A Robinhood refund is begun past the hold, and a request
is parked with the kind of what reverted. -/
def Request.Called (r : Request) (id : ℕ) : Op → Prop
  | .beginRobinhoodTx .payout k _ => k = id → ∃ e ∈ r.stateLog, e.2 = .sourceFinalized
  | .markRobinhoodPayoutSettled k => k = id → (r.robinhoodTx .payout).isSome
  | .markRobinhoodRefundPending k => k = id →
    r.disposition = .rapidBurstHold → r.operatorDecision = some .refund
  | .markRobinhoodRequestManualReview k reason => k = id → ∃ kind, reason = .reverted kind
  | _ => True

theorem Request.called_of_isCompound {r : Request} {id : ℕ} {op : Op}
    (h : op.isCompound = true) : r.Called id op := by
  cases op <;> trivial

/-- An operation whose caller looked at every row it is for. -/
def Ledger.Called (l : Ledger) (op : Op) : Prop :=
  ∀ id r, l.requests.get? id = some r → r.Called id op

/-! ## Rows that never advanced -/

/-- Nothing of the request went toward its destination. -/
structure Request.Unadvanced (r : Request) : Prop where
  state : r.state.isPastManualReview = false
  log : ∀ e ∈ r.stateLog, e.2.isPastManualReview = false
  destinationTxid : r.destinationTxid = none
  goldcoinPayout : ∀ p ∈ r.goldcoinPayout, p.state = .built
  robinhoodPayout : r.robinhoodTx .payout = none

namespace Request.Unadvanced

variable {r : Request}

/-- A move through states that are not past manual review. -/
theorem move (h : r.Unadvanced) {r' : Request} {added : List (Option RequestState × RequestState)}
    (state : r'.state.isPastManualReview = false) (log : r'.stateLog = r.stateLog ++ added)
    (hadded : ∀ e ∈ added, e.2.isPastManualReview = false)
    (txid : r'.destinationTxid = r.destinationTxid)
    (payout : r'.goldcoinPayout = r.goldcoinPayout)
    (robinhood : r'.robinhoodTx .payout = r.robinhoodTx .payout) : r'.Unadvanced where
  state := state
  log := by
    intro e he
    rw [log] at he
    rcases List.mem_append.mp he with he | he
    · exact h.log e he
    · exact hadded e he
  destinationTxid := txid ▸ h.destinationTxid
  goldcoinPayout := payout ▸ h.goldcoinPayout
  robinhoodPayout := robinhood ▸ h.robinhoodPayout

/-- Rows that differ in other columns. -/
theorem congr (h : r.Unadvanced) {r' : Request} (state : r'.state = r.state)
    (log : r'.stateLog = r.stateLog) (txid : r'.destinationTxid = r.destinationTxid)
    (payout : r'.goldcoinPayout = r.goldcoinPayout)
    (robinhood : r'.robinhoodTx .payout = r.robinhoodTx .payout) : r'.Unadvanced :=
  h.move (state ▸ h.state) (log.trans (List.append_nil _).symm) (by simp) txid payout robinhood

end Request.Unadvanced

/-- The way on of a row that never advanced: its Goldcoin deposit is final, or it
is resumed. -/
inductive Advances (op : Op) (id : ℕ) (r : Request) : Prop
  | finalized (h : r.state = .confirming)
  | resumed (h : r.state = .manualReview) (hop : op.Readmits id) (unheld : r.Unheld)
    (note : (∃ reason ∈ r.manualReviewNote, reason.isRecoverable = true) ∨
      r.direction.sourceIsGoldcoin)

namespace Ledger

variable {r r₀ r₁ r' : Request} {n k now : ℤ} {lock : QuoteLock} {dep : GlcDeposit}

theorem Awaiting.unadvanced (h : Awaiting r r₀ n) (hr : r.Unadvanced) : r₀.Unadvanced := by
  cases h with
  | awaiting h => exact hr
  | readmitted h =>
    exact hr.move rfl (List.append_assoc _ [_] [_]) (by simp; decide) rfl rfl rfl

theorem Locked.unadvanced (h : Locked lock now r r₁ k) (hr : r.Unadvanced) : r₁.Unadvanced := by
  cases h <;> exact hr.congr rfl rfl rfl rfl rfl

theorem Observed.unadvanced (h : Observed dep r r') (hr : r.Unadvanced) : r'.Unadvanced := by
  obtain ⟨added, hlog, hadded⟩ := h.log
  refine hr.move ?_ hlog (fun e he => ?_) h.rows.destinationTxid h.rows.goldcoinPayout
    (by rw [h.rows.robinhoodTx])
  · rcases h.state with hstate | ⟨hstate, -⟩ <;> rw [hstate] <;> rfl
  · rcases hadded e he with hnext | hnext | hnext <;> rw [hnext] <;> rfl

end Ledger

namespace Transition

variable {op : Op} {id : ℕ} {r r' : Request} {δ : ℤ × ℤ}

/-- A row that never advanced stays so, or its deposit is final, or it is
resumed. -/
theorem unadvanced (h : Transition op id r r' δ) (hr : r.Unadvanced) (hok : r.Called id op) :
    r'.Unadvanced ∨ (r'.state = .sourceFinalized ∧ Advances op id r) := by
  -- transitions out of the states past manual review do not apply
  have past (hstate : r.state.isPastManualReview = true) : False := by
    rw [hr.state] at hstate
    cases hstate
  have moved {r' : Request} {prior : Option RequestState} {next : RequestState}
      (hnext : next.isPastManualReview = false) (state : r'.state = next)
      (log : r'.stateLog = r.stateLog ++ [(prior, next)])
      (txid : r'.destinationTxid = r.destinationTxid)
      (payout : r'.goldcoinPayout = r.goldcoinPayout)
      (robinhood : r'.robinhoodTx .payout = r.robinhoodTx .payout) : r'.Unadvanced :=
    hr.move (state ▸ hnext) log (List.forall_mem_singleton.mpr hnext) txid payout robinhood
  cases h with
  | observed _ _ h₀ h₁ h => exact .inl (h.unadvanced (h₁.unadvanced (h₀.unadvanced hr)))
  | confirmations => exact .inl (hr.congr rfl rfl rfl rfl rfl)
  | finalized h => exact .inr ⟨rfl, .finalized h⟩
  | reorged =>
    exact .inl (hr.move rfl (List.append_assoc _ [_] [_]) (by simp; decide) rfl rfl rfl)
  | parkedForBounds h => exact (past (by rw [h]; rfl)).elim
  | parkedForContract h => exact (past (by rw [h]; rfl)).elim
  | reviewed => exact .inl (hr.move hr.state rfl (List.forall_mem_singleton.mpr rfl) rfl rfl rfl)
  | resumed h _ note _ _ _ hop unheld => exact .inr ⟨rfl, .resumed h hop unheld (.inl note)⟩
  | resumedBounds h source _ _ hop unheld =>
    exact .inr ⟨rfl, .resumed h hop unheld (.inr (by rw [source]; rfl))⟩
  | solanaRefundBroadcast =>
    left
    split_ifs
    · exact moved rfl rfl rfl rfl rfl rfl
    · exact hr.congr rfl rfl rfl rfl rfl
  | goldcoinRefundSigned => exact .inl (hr.congr rfl rfl rfl rfl rfl)
  | releaseSubmitted h => exact (past (by rw [h]; rfl)).elim
  | releaseAttested => exact .inl (hr.congr rfl rfl rfl rfl rfl)
  | releaseConfirmed h => exact (past (by rw [h]; rfl)).elim
  | payoutBuilt _ _ _ p hp =>
    left
    refine { hr with goldcoinPayout := ?_ }
    rintro _ ⟨⟩
    exact hp
  | payoutSigned _ _ h => exact (past (by rw [h]; rfl)).elim
  | payoutBroadcast _ _ h => exact (past (by rw [h]; rfl)).elim
  | payoutConfirmations hp =>
    left
    have hbuilt := hr.goldcoinPayout _ hp
    refine { hr with goldcoinPayout := ?_ }
    rintro _ ⟨⟩
    exact hbuilt
  | payoutConfirmed _ _ hp hp' =>
    have hbuilt := hr.goldcoinPayout _ hp
    rw [hp'] at hbuilt
    cases hbuilt
  | completionSubmitted hp =>
    left
    have hbuilt := hr.goldcoinPayout _ hp
    refine { hr with goldcoinPayout := ?_ }
    rintro _ ⟨⟩
    exact hbuilt
  | completionConfirmed h => exact (past (by rw [h]; rfl)).elim
  | @robinhoodTx kind t h =>
    have hother : kind ≠ .payout := by
      rintro rfl
      -- a payout is begun for what was finalized once
      obtain ⟨-, digest, rfl⟩ := h hr.robinhoodPayout
      obtain ⟨e, he, hfinal⟩ := hok rfl
      have hlog := hr.log e he
      rw [hfinal] at hlog
      cases hlog
    exact .inl (hr.congr rfl rfl rfl rfl (if_neg hother.symm))
  | robinhoodPayoutSettled hop =>
    subst hop
    have hsome := hok rfl
    rw [hr.robinhoodPayout] at hsome
    cases hsome
  | robinhoodPayoutCompleted h => exact (past (by rw [h]; rfl)).elim
  | robinhoodSettled h => exact (past (by rw [h]; rfl)).elim
  | robinhoodSettledGoldcoin h => exact (past (by rw [h]; rfl)).elim
  | _ => exact .inl (moved rfl rfl rfl rfl rfl rfl)

end Transition

end Service
