-- SUMMARY: What the observation of a Goldcoin deposit does: the outcomes that change nothing, the quote lock, and the row an accepted observation leaves.
import ReserveBridge.Service.Ledger.Goldcoin

/-!
# Deposit observation, by outcome

The observation is the longest transaction of the ledger. Its case lemma is
what every later proof about it uses.
-/

namespace Service
open Guard

namespace ParkReason

/-- The reasons a deposit is parked under while its reservation stays. -/
def isDepositPark : ParkReason → Bool
  | depositAmountMismatch _ _ | rapidBurstHold | walletSourceLimit | walletDestinationLimit
  | feedUnavailable | feedStale | warmingUp | bandExceeded | insufficientCapacityAtLock => true
  | _ => false

theorem isDepositPark_limitReason (role : WalletRole) : role.limitReason.isDepositPark = true := by
  cases role <;> rfl

theorem isDepositPark_reason (refusal : RateRefusal) : refusal.reason.isDepositPark = true := by
  cases refusal <;> rfl

end ParkReason

/-- The columns an observation leaves, and the rows of other tables. -/
structure SameRows (r r' : Request) : Prop where
  direction : r'.direction = r.direction
  gross : r'.gross = r.gross
  recipient : r'.recipient = r.recipient
  createdAt : r'.createdAt = r.createdAt
  sourceFinalizedAt : r'.sourceFinalizedAt = r.sourceFinalizedAt
  sourceContract : r'.sourceContract = r.sourceContract
  destinationTxid : r'.destinationTxid = r.destinationTxid
  solanaRefund : r'.solanaRefund = r.solanaRefund
  goldcoinRefund : r'.goldcoinRefund = r.goldcoinRefund
  goldcoinPayout : r'.goldcoinPayout = r.goldcoinPayout
  robinhoodTx : r'.robinhoodTx = r.robinhoodTx
  releaseAttested : r'.releaseAttested = r.releaseAttested
  closure : r'.closure = r.closure
  operatorDecision : r'.operatorDecision = r.operatorDecision

theorem SameRows.rfl {r : Request} : SameRows r r := by constructor <;> exact Eq.refl _

namespace Ledger

variable {l l' : Ledger} {id : ℕ} {r r' : Request} {dep : GlcDeposit} {lock : QuoteLock} {now : ℤ}

/-- What the lock of a quote does: nothing to the amounts, or the new amounts
with their difference reserved. -/
inductive Locked (lock : QuoteLock) (now : ℤ) (r : Request) : Request → ℤ → Prop
  | kept (quoted : Bool) (at' : Option ℤ) :
    Locked lock now r { r with quoted := quoted, quoteLockedAt := at' } 0
  | moved (struck : StruckQuote)
    (h : lock r.direction r.gross r.feeBps now r.destinationScale = .ok struck) :
    Locked lock now r
      { r with
        quoted := true
        quoteLockedAt := some now
        feeAmount := asI64 struck.feeOut
        netAmount := asI64 struck.netOut
        netDestination := lockedDestination r struck }
      (lockDelta r struck)

/-- What the lock does to the reserve: nothing, or the difference is reserved,
within the headroom when it is positive. -/
def LockReserved (l : Ledger) (d : ReserveDirection) (k : ℤ) (l' : Ledger) : Prop :=
  l' = l ∧ k = 0 ∨
    l' = l.addReserved d k ∧ ∃ v, l.reserves d = some v ∧ (0 < k → k ≤ v.headroom)

theorem lockQuote_cases {note : Option ParkReason} (h : l.lockQuote r lock now = .ok (l', r', note)) :
    ∃ k, Locked lock now r r' k ∧ l.LockReserved r.direction.destinationReserve k l' ∧
      ∀ reason ∈ note, reason.isDepositPark = true := by
  unfold lockQuote at h
  split at h
  · simp only [pure_eq_ok, Prod.mk.injEq] at h
    obtain ⟨rfl, rfl, rfl⟩ := h
    refine ⟨0, .kept r.quoted r.quoteLockedAt, .inl ⟨rfl, rfl⟩, ?_⟩
    rintro _ ⟨⟩
    exact ParkReason.isDepositPark_reason _
  · simp only [pure_eq_ok, Prod.mk.injEq] at h
    obtain ⟨rfl, rfl, rfl⟩ := h
    exact ⟨0, .kept r.quoted r.quoteLockedAt, .inl ⟨rfl, rfl⟩, by simp⟩
  · rename_i struck hstruck
    have hband : ∀ reason ∈ (if struck.band then some ParkReason.bandExceeded else none),
        reason.isDepositPark = true := by
      cases struck.band <;> simp [ParkReason.isDepositPark]
    generalize (if struck.band then some ParkReason.bandExceeded else none) = band at h hband
    split_ifs at h with hsame
    · simp only [pure_eq_ok, Prod.mk.injEq] at h
      obtain ⟨rfl, rfl, rfl⟩ := h
      exact ⟨0, .kept true (some now), .inl ⟨rfl, rfl⟩, hband⟩
    · simp only [bind_eq_ok, reserve_eq_ok] at h
      obtain ⟨v, hv, h⟩ := h
      split_ifs at h with hroom
      · simp only [pure_eq_ok, Prod.mk.injEq] at h
        obtain ⟨rfl, rfl, rfl⟩ := h
        exact ⟨0, .kept true (some now), .inl ⟨rfl, rfl⟩, by simp [ParkReason.isDepositPark]⟩
      · simp only [pure_eq_ok, Prod.mk.injEq] at h
        obtain ⟨rfl, rfl, rfl⟩ := h
        exact ⟨_, .moved struck hstruck, .inr ⟨rfl, v, hv, fun hpos =>
          not_lt.mp fun hlt => hroom ⟨hpos, hlt⟩⟩, hband⟩

/-- What an accepted observation makes of its row. -/
structure Observed (dep : GlcDeposit) (r r' : Request) : Prop where
  rows : SameRows r r'
  sourceTxid : r'.sourceTxid = some dep.txid
  sourceVout : r'.sourceVout = some dep.vout
  sourceBlock : r'.sourceBlockHeight = some dep.blockHeight ∧ r'.sourceBlockHash = some dep.blockHash
  state : r'.state = .confirming ∨ (r'.state = .manualReview ∧
    ∃ reason ∈ r'.manualReviewNote, reason.isDepositPark = true)
  hold : (r'.disposition = r.disposition ∧ r'.holdNote = r.holdNote) ∨
    (r'.disposition = .rapidBurstHold ∧ r'.holdNote = true ∧ r'.state = .manualReview)
  log : ∃ added, r'.stateLog = r.stateLog ++ added ∧
    ∀ e ∈ added, e.2 = .depositObserved ∨ e.2 = .confirming ∨ e.2 = .manualReview

theorem Locked.rows {k : ℤ} (h : Locked lock now r r' k) : SameRows r r' := by
  cases h <;> constructor <;> rfl

theorem observeAwaiting_cases {fresh outcome : GlcObservationOutcome}
    (h : l.observeAwaiting id r dep lock fresh now = .ok (outcome, l')) :
    ¬ l.SourceOutpointTaken (some id) dep.txid dep.vout ∧
    ∃ l₁ r₁ r' k, Locked lock now r r₁ k ∧ Observed dep r₁ r' ∧
      r'.netDestination = r₁.netDestination ∧ l' = l₁.setRequest id r' ∧
      l.LockReserved r.direction.destinationReserve k l₁ := by
  simp only [observeAwaiting, bind_eq_ok, require_eq_ok, exists_unit] at h
  obtain ⟨hfree, h⟩ := h
  refine ⟨hfree, ?_⟩
  -- whatever parks the row leaves the rest of it alone
  have parked : ∀ (r₁ : Request) (reason : ParkReason) (primary : Option Bytes),
      reason.isDepositPark = true → Observed dep r₁ (r₁.parkDeposit dep reason primary) :=
    fun r₁ reason primary hreason =>
      ⟨by constructor <;> rfl, rfl, rfl, ⟨rfl, rfl⟩, .inr ⟨rfl, reason, rfl, hreason⟩,
        .inl ⟨rfl, rfl⟩, [_], rfl, by simp⟩
  split_ifs at h with hamount
  · simp only [pure_eq_ok, Prod.mk.injEq] at h
    obtain ⟨-, rfl⟩ := h
    exact ⟨l, r, _, 0, .kept r.quoted r.quoteLockedAt, parked r _ none rfl, rfl, rfl,
      .inl ⟨rfl, rfl⟩⟩
  · simp only [bind_eq_ok] at h
    obtain ⟨⟨l₁, r₁, note⟩, hlock, h⟩ := h
    obtain ⟨k, hlocked, hl₁, hnote⟩ := lockQuote_cases hlock
    -- four ways on, each of which writes the row once
    suffices hrow : ∃ r', Observed dep r₁ r' ∧ r'.netDestination = r₁.netDestination ∧
        l' = l₁.setRequest id r' by
      obtain ⟨r', hobs, hnet, rfl⟩ := hrow
      exact ⟨l₁, r₁, r', k, hlocked, hobs, hnet, rfl, hl₁⟩
    dsimp only at h
    split_ifs at h with hburst
    · simp only [pure_eq_ok, Prod.mk.injEq] at h
      obtain ⟨-, rfl⟩ := h
      refine ⟨_, ?_, ?_, rfl⟩
      · exact ⟨by constructor <;> rfl, rfl, rfl, ⟨rfl, rfl⟩, .inr ⟨rfl, .rapidBurstHold, rfl, rfl⟩,
          .inr ⟨rfl, rfl, rfl⟩, [_, _], List.append_assoc _ [_] [_], by simp⟩
      · rfl
    · split at h
      · simp only [pure_eq_ok, Prod.mk.injEq] at h
        obtain ⟨-, rfl⟩ := h
        exact ⟨_, parked _ _ _ (ParkReason.isDepositPark_limitReason _), rfl, rfl⟩
      · split at h
        · simp only [pure_eq_ok, Prod.mk.injEq] at h
          obtain ⟨-, rfl⟩ := h
          exact ⟨_, parked _ _ _ (hnote _ rfl), rfl, rfl⟩
        · simp only [pure_eq_ok, Prod.mk.injEq] at h
          obtain ⟨-, rfl⟩ := h
          refine ⟨_, ?_, ?_, rfl⟩
          · exact ⟨by constructor <;> rfl, rfl, rfl, ⟨rfl, rfl⟩, .inl rfl, .inl ⟨rfl, rfl⟩,
            [_, _], List.append_assoc _ [_] [_], by simp⟩
          · rfl

/-- The row an observation starts from, with what is reserved for it first: a
row that awaits its deposit, or an expired one readmitted. -/
inductive Awaiting (r : Request) : Request → ℤ → Prop
  | awaiting (h : r.state = .awaitingDeposit) : Awaiting r r 0
  | readmitted (h : r.state = .expired) : Awaiting r r.readmit r.netDestination

theorem recordGlcDepositObserved_cases {outcome : GlcObservationOutcome}
    (h : l.recordGlcDepositObserved id dep lock now = .ok (outcome, l')) :
    (l' = l ∧ (outcome = .alreadyRecorded ∨ outcome = .noMatchingRequest)) ∨
    ∃ r, l.requests.get? id = some r ∧ r.direction.sourceIsGoldcoin ∧
      ¬ l.SourceOutpointTaken (some id) dep.txid dep.vout ∧
      ((r.state = .expired ∧ l' = l.setRequest id
          { (r.withDeposit dep).transition .manualReview with
            manualReviewNote := some .lateDepositNoCapacity }) ∨
        ∃ r₀ n l₀ l₁ r₁ r' k, Awaiting r r₀ n ∧
          (l₀ = l ∧ n = 0 ∨ l₀ = l.addReserved r.direction.destinationReserve n ∧
            ∃ v, l.reserves r.direction.destinationReserve = some v ∧ n ≤ v.headroom) ∧
          Locked lock now r₀ r₁ k ∧ Observed dep r₁ r' ∧ r'.netDestination = r₁.netDestination ∧
          l' = l₁.setRequest id r' ∧ l₀.LockReserved r.direction.destinationReserve k l₁) := by
  unfold recordGlcDepositObserved at h
  split at h
  · simp only [pure_eq_ok, Prod.mk.injEq] at h
    exact .inl ⟨h.2.symm, .inr h.1.symm⟩
  · rename_i r hget
    by_cases halready : (r.state = .depositObserved ∨ r.state = .confirming) ∧
        r.sourceTxid = some dep.txid
    · rw [if_pos halready, pure_eq_ok, Prod.mk.injEq] at h
      exact .inl ⟨h.2.symm, .inl h.1.symm⟩
    rw [if_neg halready] at h
    by_cases hsource : r.direction.sourceIsGoldcoin
    swap
    · rw [if_pos hsource, pure_eq_ok, Prod.mk.injEq] at h
      exact .inl ⟨h.2.symm, .inr h.1.symm⟩
    rw [if_neg (not_not.mpr hsource)] at h
    by_cases hexpired : r.state = .expired
    · refine .inr ⟨r, hget, hsource, ?_⟩
      rw [if_pos hexpired] at h
      simp only [bind_eq_ok, reserve_eq_ok] at h
      obtain ⟨v, hv, h⟩ := h
      split_ifs at h with hroom
      · simp only [bind_eq_ok, require_eq_ok, exists_unit, pure_eq_ok, Prod.mk.injEq] at h
        obtain ⟨hfree, -, rfl⟩ := h
        exact ⟨hfree, .inl ⟨hexpired, rfl⟩⟩
      · obtain ⟨hfree, l₁, r₁, r', k, hlocked, hobs, hnet, rfl, hl₁⟩ := observeAwaiting_cases h
        exact ⟨hfree, .inr ⟨_, _, _, l₁, r₁, r', k, .readmitted hexpired,
          .inr ⟨rfl, v, hv, not_lt.mp hroom⟩, hlocked, hobs, hnet, rfl, hl₁⟩⟩
    rw [if_neg hexpired] at h
    by_cases hawaiting : r.state = .awaitingDeposit
    · refine .inr ⟨r, hget, hsource, ?_⟩
      rw [if_neg (not_not.mpr hawaiting)] at h
      obtain ⟨hfree, l₁, r₁, r', k, hlocked, hobs, hnet, rfl, hl₁⟩ := observeAwaiting_cases h
      exact ⟨hfree, .inr ⟨_, _, _, l₁, r₁, r', k, .awaiting hawaiting,
        .inl ⟨rfl, rfl⟩, hlocked, hobs, hnet, rfl, hl₁⟩⟩
    · rw [if_pos hawaiting, pure_eq_ok, Prod.mk.injEq] at h
      exact .inl ⟨h.2.symm, .inr h.1.symm⟩

end Ledger

end Service
