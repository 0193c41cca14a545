-- SUMMARY: Reservation bookkeeping: what a request holds by its state, the equation between the books of a reserve and its requests, and the operations after which the equation fails.
import ReserveBridge.Service.Ledger.Effects

/-!
# Reservation bookkeeping

A reserve row keeps the sums of what its requests hold: a reservation from the
creation of a request on, and an obligation besides from the finality of its
deposit on. Both end with the request. A parked request keeps what it held when
it was parked, and no column says so: it follows from the reason it was parked
under.
-/

namespace Service
open Guard

/-! ## What a request holds -/

namespace RequestState

/-- Reserved only: the deposit is not final. -/
def isWaiting : RequestState → Bool
  | liquidityReserved | awaitingDeposit | depositObserved | confirming => true
  | _ => false

end RequestState

namespace ParkReason

/-- The reasons a request is parked under with its reservation. -/
def keepsReservation (d : Direction) : ParkReason → Bool
  | destinationPayoutOutOfBounds | depositSpentBeforeFinalized => d.sourceIsGoldcoin
  | foreignContract => d.sourceIsRobinhood
  | reason => d.sourceIsGoldcoin && reason.isDepositPark

/-- The reasons a request is parked under with its obligation. -/
def keepsObligation (d : Direction) : ParkReason → Bool
  | destinationPayoutOutOfBounds => d.sourceIsGoldcoin
  | foreignContract => d.sourceIsRobinhood
  | _ => false

variable {d : Direction} {reason : ParkReason}

theorem keepsReservation_of_isDepositPark (hd : d.sourceIsGoldcoin)
    (h : reason.isDepositPark = true) : reason.keepsReservation d = true := by
  cases reason <;> simp_all [keepsReservation, isDepositPark]

theorem keepsObligation_of_isDepositPark (h : reason.isDepositPark = true) :
    reason.keepsObligation d = false := by
  cases reason <;> simp_all [isDepositPark, keepsObligation]

theorem keepsReservation_of_isGlcRefundable (hd : d.sourceIsGoldcoin)
    (h : reason.isGlcRefundable = true) : reason.keepsReservation d = true := by
  cases reason <;> simp_all [isGlcRefundable, keepsReservation, isDepositPark]

/-- What is parked with its obligation is parked with its reservation. -/
theorem keepsReservation_of_keepsObligation (h : reason.keepsObligation d = true) :
    reason.keepsReservation d = true := by
  cases reason <;> simp_all [keepsObligation, keepsReservation]

/-- A fold parks before anything is reserved. -/
theorem keepsReservation_of_isFoldPark (hd : ¬ d.sourceIsGoldcoin)
    (h : reason.isFoldPark = true) : reason.keepsReservation d = false := by
  cases reason <;> simp_all [isFoldPark, keepsReservation]

/-- What is resumed is reserved again. -/
theorem keepsReservation_of_isRecoverable (hd : ¬ d.sourceIsGoldcoin)
    (h : reason.isRecoverable = true) : reason.keepsReservation d = false := by
  cases reason <;> simp_all [isRecoverable, keepsReservation]

end ParkReason

namespace Request

def holdsReservation (r : Request) : Bool :=
  r.state.isWaiting || r.state.isOwed ||
    (r.state == .destinationConfirmed && r.direction.destinationIsGoldcoin) ||
    (r.state.isParked && r.manualReviewNote.any (ParkReason.keepsReservation r.direction))

def holdsObligation (r : Request) : Bool :=
  r.state.isOwed ||
    (r.state == .destinationConfirmed && r.direction.destinationIsGoldcoin) ||
    (r.state.isParked && r.manualReviewNote.any (ParkReason.keepsObligation r.direction))

/-- What a request adds to reserved liquidity and to pending obligations. -/
def booked (r : Request) : ℤ × ℤ :=
  (if r.holdsReservation then r.netDestination else 0,
    if r.holdsObligation then r.netDestination else 0)

/-- The same, on the reserve of its destination. -/
def bookedOn (d : ReserveDirection) (r : Request) : ℤ × ℤ :=
  if d = r.direction.destinationReserve then r.booked else 0

variable {r r' : Request}

theorem booked_of_isWaiting (h : r.state.isWaiting = true) : r.booked = (r.netDestination, 0) := by
  unfold booked holdsReservation holdsObligation
  cases hs : r.state <;>
    simp_all [RequestState.isWaiting, RequestState.isOwed, RequestState.isParked]

theorem booked_of_isOwed (h : r.state.isOwed = true) :
    r.booked = (r.netDestination, r.netDestination) := by
  simp [booked, holdsReservation, holdsObligation, h]

theorem booked_of_destinationConfirmed (h : r.state = .destinationConfirmed) :
    r.booked = if r.direction.destinationIsGoldcoin then (r.netDestination, r.netDestination)
      else 0 := by
  by_cases hd : r.direction.destinationIsGoldcoin <;>
    simp [booked, holdsReservation, holdsObligation, h, hd, RequestState.isWaiting,
      RequestState.isOwed, RequestState.isParked, Prod.mk_zero_zero]

theorem booked_of_isParked (h : r.state.isParked = true) :
    r.booked =
      (if r.manualReviewNote.any (ParkReason.keepsReservation r.direction) then r.netDestination else 0,
        if r.manualReviewNote.any (ParkReason.keepsObligation r.direction) then r.netDestination
        else 0) := by
  unfold booked holdsReservation holdsObligation
  cases hs : r.state <;>
    simp_all [RequestState.isWaiting, RequestState.isOwed, RequestState.isParked]

/-- A request parked under a reason that keeps nothing holds nothing. -/
theorem booked_of_parked_clear {reason : ParkReason} (h : r.state.isParked = true)
    (hnote : r.manualReviewNote = some reason) (hclear : reason.keepsReservation r.direction = false) :
    r.booked = 0 := by
  have hobligation : reason.keepsObligation r.direction = false := by
    by_contra hne
    have hkeeps := ParkReason.keepsReservation_of_keepsObligation (by simpa using hne)
    rw [hclear] at hkeeps
    cases hkeeps
  simp [booked_of_isParked h, hnote, hclear, hobligation, Prod.mk_zero_zero]

/-- A request that is over holds nothing, and neither does one that is not yet
booked. -/
theorem booked_eq_zero (h₁ : r.state.isActive = false) (h₂ : r.state ≠ .destinationConfirmed)
    (h₃ : r.state.isParked = false) : r.booked = 0 := by
  unfold booked holdsReservation holdsObligation
  cases hs : r.state <;>
    simp_all [RequestState.isActive, RequestState.isWaiting, RequestState.isOwed,
      RequestState.isParked, Prod.mk_zero_zero]

/-- What a request holds is a matter of five columns. -/
theorem booked_congr (hs : r'.state = r.state) (hd : r'.direction = r.direction)
    (hn : r'.netDestination = r.netDestination) (hm : r'.manualReviewNote = r.manualReviewNote) :
    r'.booked = r.booked := by
  unfold booked holdsReservation holdsObligation
  rw [hs, hd, hn, hm]

/-- Within the refund lifecycle what a parked request holds stays. -/
theorem booked_congr_of_isParked (hs : r.state.isParked = true) (hs' : r'.state.isParked = true)
    (hd : r'.direction = r.direction) (hn : r'.netDestination = r.netDestination)
    (hm : r'.manualReviewNote = r.manualReviewNote) : r'.booked = r.booked := by
  rw [booked_of_isParked hs, booked_of_isParked hs', hd, hn, hm]

end Request

/-! ## Operations that keep the books -/

/-- The refund a row has begun, while it is not final: the row is still parked,
with its reservation. -/
def Request.RefundTracked (r : Request) : Prop :=
  ∀ f ∈ r.goldcoinRefund, f.state ≠ .refunded → r.state.isParked = true ∧
    r.manualReviewNote.any (ParkReason.keepsReservation r.direction) = true

/-- The commit of a Goldcoin refund releases a reservation, and no obligation. -/
def Request.RefundAccountable (r : Request) : Prop :=
  ∀ f ∈ r.goldcoinRefund, f.state = .broadcast →
    r.manualReviewNote ≠ some .destinationPayoutOutOfBounds

/-- What an operation must find in the row it moves for the books to stay in
order. -/
def Request.Accountable (r : Request) (id : ℕ) : Op → Prop
  | .recordGlcDepositObserved k _ lock now => k = id →
    ∀ struck, lock r.direction r.gross r.feeBps now r.destinationScale = .ok struck →
      Ledger.lockDelta r struck = Ledger.lockedDestination r struck - r.netDestination
  | .closeManualReview k _ _ _ _ => k = id → r.state = .manualReview →
    r.manualReviewNote.any (ParkReason.keepsReservation r.direction) = false
  | .recordGoldcoinRefundConfirmed k => k = id → r.RefundAccountable
  | .reconcileGoldcoinRefundConfirmations k _ _ => k = id → r.RefundAccountable
  | .markRobinhoodRefundConfirmed k => k = id → r.manualReviewNote ≠ some .foreignContract
  | .markRobinhoodRequestManualReview k reason => k = id →
    r.state ≠ .settled ∧ r.state ≠ .refunded ∧ r.state ≠ .manualReview →
      reason.keepsReservation r.direction = false ∧
        if r.state.isActive then r.state.isOwed = true else r.holdsReservation = false
  | .markRobinhoodPayoutSettled k => k = id →
    r.state.isOwed = true ∨ r.state = .settled ∨
      (r.state = .destinationConfirmed ∧ ¬ r.direction.settlesOnPayout)
  | .updateGoldcoinPayoutConfirmations k c depth => k = id → depth ≤ c →
    ∀ p ∈ r.goldcoinPayout, p.state = .broadcast → r.state.isOwed = true
  | _ => True

namespace Request

variable {r : Request}

theorem booked_eq_zero_of_holdsReservation (h : r.holdsReservation = false) : r.booked = 0 := by
  have hobligation : r.holdsObligation = false := by
    by_contra hne
    have hkeeps : r.manualReviewNote.any (ParkReason.keepsObligation r.direction) = true →
        r.manualReviewNote.any (ParkReason.keepsReservation r.direction) = true := by
      cases r.manualReviewNote with
      | none => simp
      | some reason => exact ParkReason.keepsReservation_of_keepsObligation
    simp only [holdsReservation, holdsObligation, Bool.or_eq_false_iff,
      Bool.and_eq_false_iff] at h hne
    grind
  simp [booked, h, hobligation, Prod.mk_zero_zero]

/-- A request out of Solana is parked under no reason that keeps anything. -/
theorem booked_of_parked_solana (h : r.state.isParked = true) (source : r.direction.sourceIsSolana) :
    r.booked = 0 := by
  have hg : ¬ r.direction.sourceIsGoldcoin := by
    rw [Direction.sourceIsGoldcoin, source]
    simp
  have hr : ¬ r.direction.sourceIsRobinhood := by
    rw [Direction.sourceIsRobinhood, source]
    simp
  cases hnote : r.manualReviewNote with
  | none => simp [booked_of_isParked h, hnote, Prod.mk_zero_zero]
  | some reason =>
    refine booked_of_parked_clear h hnote ?_
    cases reason <;> simp [ParkReason.keepsReservation, hg, hr]

/-- A request out of Robinhood is parked with its reservation under one reason
only. -/
theorem booked_of_parked_robinhood (h : r.state.isParked = true)
    (source : r.direction.sourceIsRobinhood) (hnote : r.manualReviewNote ≠ some .foreignContract) :
    r.booked = 0 := by
  have hg : ¬ r.direction.sourceIsGoldcoin := by
    rw [Direction.sourceIsGoldcoin, source]
    simp
  cases hreason : r.manualReviewNote with
  | none => simp [booked_of_isParked h, hreason, Prod.mk_zero_zero]
  | some reason =>
    refine booked_of_parked_clear h hreason ?_
    cases reason <;> simp_all [ParkReason.keepsReservation]

/-- A request whose Goldcoin refund is out holds its reservation, and no
obligation unless its payout was out of bounds. -/
theorem booked_of_refundAccountable {f : GoldcoinRefund} (hwf : r.Wf) (htracked : r.RefundTracked)
    (hf : r.goldcoinRefund = some f) (h : f.state = .broadcast) (hok : r.RefundAccountable) :
    r.booked = (r.netDestination, 0) := by
  obtain ⟨hparked, hkeeps⟩ := htracked f hf (by simp [h])
  have source : r.direction.sourceIsGoldcoin := hwf.refund (by rw [hf]; rfl)
  have hr : ¬ r.direction.sourceIsRobinhood := by
    rw [Direction.sourceIsRobinhood, source]
    simp
  have hnote := hok f hf h
  have hclear : r.manualReviewNote.any (ParkReason.keepsObligation r.direction) = false := by
    cases hreason : r.manualReviewNote with
    | none => rfl
    | some reason => cases reason <;> simp_all [ParkReason.keepsObligation]
  simp [booked_of_isParked hparked, hkeeps, hclear]

end Request

namespace Ledger

variable {r r₀ r₁ r' : Request} {dep : GlcDeposit} {lock : QuoteLock} {now n k : ℤ}

/-- An observed deposit leaves its request with the reservation it had, moved by
what the lock reserved. -/
theorem booked_observed (source : r.direction.sourceIsGoldcoin) (h₀ : Awaiting r r₀ n)
    (h₁ : Locked lock now r₀ r₁ k) (h : Observed dep r₁ r')
    (hnet : r'.netDestination = r₁.netDestination)
    (hok : ∀ struck, lock r.direction r.gross r.feeBps now r.destinationScale = .ok struck →
      lockDelta r struck = lockedDestination r struck - r.netDestination) :
    r'.booked = r.booked + (n + k, 0) := by
  -- before the lock the row awaits its deposit, with its reservation
  have hr₀ : r.booked + (n, 0) = (r.netDestination, 0) := by
    cases h₀ with
    | awaiting h => simp [Request.booked_of_isWaiting (show r.state.isWaiting = true by rw [h]; rfl)]
    | readmitted h =>
      have hr : r.booked = 0 :=
        Request.booked_eq_zero (by rw [h]; rfl) (by simp [h]) (by rw [h]; rfl)
      simp [hr]
  have hk : r₁.netDestination = r.netDestination + k := by
    cases h₁ with
    | kept => cases h₀ <;> exact (add_zero _).symm
    | moved struck hstruck =>
      have hdelta := hok struck (by cases h₀ <;> exact hstruck)
      have hr₀' : lockedDestination r₀ struck = lockedDestination r struck ∧
          lockDelta r₀ struck = lockDelta r struck := by cases h₀ <;> exact ⟨rfl, rfl⟩
      rw [hr₀'.2, hdelta]
      show lockedDestination r₀ struck = _
      rw [hr₀'.1]
      omega
  have hd : r'.direction = r.direction := ((h₀.rows.trans h₁.rows).trans h.rows).direction
  have hr' : r'.booked = (r'.netDestination, 0) := by
    obtain hstate | ⟨hstate, reason, hnote, hpark⟩ := h.state
    · exact Request.booked_of_isWaiting (by rw [hstate]; rfl)
    · have hkeeps := ParkReason.keepsReservation_of_isDepositPark (hd ▸ source) hpark
      have hclear : reason.keepsObligation r'.direction = false :=
        ParkReason.keepsObligation_of_isDepositPark hpark
      rw [Request.booked_of_isParked (by rw [hstate]; rfl), hnote]
      simp [hkeeps, hclear]
  rw [hr', hnet, hk]
  calc (r.netDestination + k, (0 : ℤ)) = (r.netDestination, 0) + (k, 0) := by simp
    _ = r.booked + (n, 0) + (k, 0) := by rw [hr₀]
    _ = r.booked + (n + k, 0) := by rw [add_assoc, Prod.mk_add_mk n k, add_zero (0 : ℤ)]

end Ledger

namespace Transition

variable {op : Op} {id : ℕ} {r r' : Request} {δ : ℤ × ℤ}

/-- What is booked for a transition is by how much it changes what its request
holds. -/
theorem booked (h : Transition op id r r' δ) (hwf : r.Wf) (htracked : r.RefundTracked)
    (hok : r.Accountable id op) : r'.booked = r.booked + δ := by
  -- along the refund lifecycle a row holds what it held
  have stays : r.state.isParked = true → r'.state.isParked = true → r'.direction = r.direction →
      r'.netDestination = r.netDestination → r'.manualReviewNote = r.manualReviewNote →
      r'.booked = r.booked + 0 := by
    intro hs hs' hd hn hm
    rw [add_zero]
    exact Request.booked_congr_of_isParked hs hs' hd hn hm
  cases h with
  -- the source leg
  | expired h =>
    have hr : r.booked = (r.netDestination, 0) := Request.booked_of_isWaiting (by rw [h]; rfl)
    refine Eq.trans (Request.booked_eq_zero rfl (fun h => by cases h) rfl) ?_
    simp [hr, Prod.mk_zero_zero]
  | cancelled h note =>
    have hr : r.booked = (r.netDestination, 0) :=
      Request.booked_of_isWaiting (by obtain h | h := h <;> rw [h] <;> rfl)
    refine Eq.trans (Request.booked_eq_zero rfl (fun h => by cases h) rfl) ?_
    simp [hr, Prod.mk_zero_zero]
  | lateDeposit h dep =>
    have hr : r.booked = 0 :=
      Request.booked_eq_zero (by rw [h]; rfl) (by simp [h]) (by rw [h]; rfl)
    refine Eq.trans (Request.booked_of_parked_clear rfl rfl ?_) (by simp [hr])
    simp [ParkReason.keepsReservation, ParkReason.isDepositPark]
  | observed hop source h₀ h₁ h hnet =>
    subst hop
    exact Ledger.booked_observed source h₀ h₁ h hnet (hok rfl)
  | confirmations c => exact (Request.booked_congr rfl rfl rfl rfl).trans (add_zero _).symm
  | finalized h now =>
    have hr : r.booked = (r.netDestination, 0) := Request.booked_of_isWaiting (by rw [h]; rfl)
    refine Eq.trans (Request.booked_of_isOwed rfl) ?_
    simp [hr]
  | spentBeforeFinalized h =>
    have hr : r.booked = (r.netDestination, 0) := Request.booked_of_isWaiting (by rw [h]; rfl)
    refine Eq.trans (Request.booked_of_isParked rfl) ?_
    simp [hr, ParkReason.keepsReservation, ParkReason.keepsObligation, hwf.confirming h]
  | reorged h =>
    have hr : r.booked = (r.netDestination, 0) :=
      Request.booked_of_isWaiting (by obtain h | h := h <;> rw [h] <;> rfl)
    refine Eq.trans (Request.booked_of_isWaiting rfl) ?_
    rw [hr, add_zero]
    rfl
  -- manual review
  | parkedForBounds h =>
    have hr : r.booked = (r.netDestination, r.netDestination) :=
      Request.booked_of_isOwed (by rw [h]; rfl)
    refine Eq.trans (Request.booked_of_isParked rfl) ?_
    by_cases source : r.direction.sourceIsGoldcoin <;>
      simp [hr, source, ParkReason.keepsReservation, ParkReason.keepsObligation, Prod.mk_zero_zero]
  | parkedForContract h source =>
    have hr : r.booked = (r.netDestination, r.netDestination) :=
      Request.booked_of_isOwed (by rw [h]; rfl)
    refine Eq.trans (Request.booked_of_isParked rfl) ?_
    simp [hr, source, ParkReason.keepsReservation, ParkReason.keepsObligation]
  | reviewed => exact (Request.booked_congr rfl rfl rfl rfl).trans (add_zero _).symm
  | resumed h source note noRefund noPayout next =>
    obtain ⟨reason, hnote, hrecoverable⟩ := note
    have hr : r.booked = 0 := Request.booked_of_parked_clear (by rw [h]; rfl) hnote
      (ParkReason.keepsReservation_of_isRecoverable source hrecoverable)
    refine Eq.trans (Request.booked_of_isOwed rfl) ?_
    simp [hr]
  | resumedBounds h route note noRefund =>
    have hr : r.booked = (r.netDestination, r.netDestination) := by
      rw [Request.booked_of_isParked (by rw [h]; rfl), note, route]
      rfl
    refine Eq.trans (Request.booked_of_isOwed rfl) ?_
    simp [hr]
  | closed hop h noRefund =>
    subst hop
    have hclear := hok rfl h
    have hr : r.booked = 0 := by
      cases hnote : r.manualReviewNote with
      | none => simp [Request.booked_of_isParked, h, hnote, RequestState.isParked, Prod.mk_zero_zero]
      | some reason =>
        rw [hnote] at hclear
        exact Request.booked_of_parked_clear (by rw [h]; rfl) hnote hclear
    refine Eq.trans (Request.booked_eq_zero rfl (fun h => by cases h) rfl) ?_
    simp [hr]
  -- refunds
  | solanaRefundBegun h source noRefund f hf =>
    exact stays (by rw [h]; rfl) rfl rfl rfl rfl
  | solanaRefundBroadcast hf h =>
    have hparked : r.state.isParked = true := by obtain h | h := h <;> rw [h] <;> rfl
    rw [add_zero]
    split_ifs
    · exact Request.booked_congr_of_isParked hparked rfl rfl rfl rfl
    · exact Request.booked_congr rfl rfl rfl rfl
  | solanaRefundConfirmed hf h =>
    -- a request out of Solana is parked under no reason that keeps anything
    have source : r.direction.sourceIsSolana := hwf.solanaRefund (by rw [hf]; rfl)
    have hr : r.booked = 0 := Request.booked_of_parked_solana (by rw [h]; rfl) source
    refine Eq.trans (Request.booked_eq_zero rfl (fun h => by cases h) rfl) ?_
    simp [hr]
  | refundReturned hop h source =>
    exact stays (by rw [h]; rfl) rfl rfl rfl rfl
  | goldcoinRefundBegun h source note noRefund =>
    exact stays (by rw [h]; rfl) rfl rfl rfl rfl
  | goldcoinRefundSigned hf h => exact (Request.booked_congr rfl rfl rfl rfl).trans (add_zero _).symm
  | goldcoinRefundBroadcast hop hf h =>
    have hparked := (htracked _ hf (by simp [h])).1
    exact stays hparked rfl rfl rfl rfl
  | goldcoinRefundConfirmed hop hf h =>
    have hr : r.booked = (r.netDestination, 0) :=
      Request.booked_of_refundAccountable hwf htracked hf h (by
        obtain rfl | ⟨c, q, rfl⟩ := hop
        · exact hok rfl
        · exact hok rfl)
    have hunreleased : ¬ _ := fun hrel => by
      have hstate := hwf.released _ hf hrel
      rw [h] at hstate
      cases hstate
    refine Eq.trans (Request.booked_eq_zero rfl (fun h => by cases h) rfl) ?_
    rw [if_neg hunreleased]
    simp [hr, Prod.mk_zero_zero]
  | robinhoodRefundPending h source =>
    exact stays (by rw [h]; rfl) rfl rfl rfl rfl
  | robinhoodRefundConfirmed hop h source =>
    subst hop
    have hr : r.booked = 0 :=
      Request.booked_of_parked_robinhood (by obtain h | h := h <;> rw [h] <;> rfl) source (hok rfl)
    refine Eq.trans (Request.booked_eq_zero rfl (fun h => by cases h) rfl) ?_
    simp [hr]
  | robinhoodParked hop h =>
    subst hop
    obtain ⟨hclear, hholds⟩ := hok rfl h
    refine Eq.trans (Request.booked_of_parked_clear rfl rfl hclear) ?_
    split_ifs at hholds ⊢ with hactive
    · simp [Request.booked_of_isOwed hholds, Prod.mk_zero_zero]
    · simp [Request.booked_eq_zero_of_holdsReservation hholds]
  -- the destination leg
  | releaseSubmitted h destination signature =>
    have hr : r.booked = (r.netDestination, r.netDestination) :=
      Request.booked_of_isOwed (by rw [h]; rfl)
    refine Eq.trans (Request.booked_of_isOwed rfl) ?_
    simp [hr]
  | releaseAttested => exact (Request.booked_congr rfl rfl rfl rfl).trans (add_zero _).symm
  | releaseConfirmed h destination =>
    have hr : r.booked = (r.netDestination, r.netDestination) :=
      Request.booked_of_isOwed (by rw [h]; rfl)
    have hbound : ¬ r.direction.destinationIsGoldcoin := by
      rw [Direction.destinationIsGoldcoin, destination]
      simp
    refine @Eq.trans _ _ 0 _ ?_ (by simp [hr, Prod.mk_zero_zero])
    split_ifs
    · exact Request.booked_eq_zero rfl (fun h => by cases h) rfl
    · exact (Request.booked_of_destinationConfirmed rfl).trans (if_neg hbound)
  | payoutBuilt destination noPayout noRefund p hp hp' =>
    exact (Request.booked_congr rfl rfl rfl rfl).trans (add_zero _).symm
  | payoutSigned hp hp' h =>
    have hr : r.booked = (r.netDestination, r.netDestination) :=
      Request.booked_of_isOwed (by rw [h]; rfl)
    refine Eq.trans (Request.booked_of_isOwed rfl) ?_
    simp [hr]
  | payoutBroadcast hp hp' h txid =>
    have hr : r.booked = (r.netDestination, r.netDestination) :=
      Request.booked_of_isOwed (by rw [h]; rfl)
    refine Eq.trans (Request.booked_of_isOwed rfl) ?_
    simp [hr]
  | payoutConfirmations hp c => exact (Request.booked_congr rfl rfl rfl rfl).trans (add_zero _).symm
  | payoutConfirmed hop hdepth hp hp' c =>
    subst hop
    have hr : r.booked = (r.netDestination, r.netDestination) :=
      Request.booked_of_isOwed (hok rfl hdepth _ hp hp')
    have destination : r.direction.destinationIsGoldcoin := hwf.payout (by rw [hp]; rfl)
    refine Eq.trans (Request.booked_of_destinationConfirmed rfl) ?_
    rw [hr, add_zero]
    exact if_pos destination
  | completionSubmitted hp h signature =>
    exact (Request.booked_congr rfl rfl rfl rfl).trans (add_zero _).symm
  | completionConfirmed h route =>
    have hr : r.booked = (r.netDestination, r.netDestination) := by
      rw [Request.booked_of_destinationConfirmed h, route]
      rfl
    refine Eq.trans (Request.booked_eq_zero rfl (fun h => by cases h) rfl) ?_
    simp [hr, Prod.mk_zero_zero]
  | robinhoodTx h => exact (Request.booked_congr rfl rfl rfl rfl).trans (add_zero _).symm
  | robinhoodPayoutSettled hop destination h =>
    subst hop
    have hr : r.booked = (r.netDestination, r.netDestination) := by
      obtain howed | hdone := hok rfl
      · exact Request.booked_of_isOwed howed
      · exact absurd hdone h
    have hbound : ¬ r.direction.destinationIsGoldcoin := by
      rw [Direction.destinationIsGoldcoin, destination]
      simp
    refine @Eq.trans _ _ 0 _ ?_ (by simp [hr, Prod.mk_zero_zero])
    split_ifs
    · exact Request.booked_eq_zero rfl (fun h => by cases h) rfl
    · exact (Request.booked_of_destinationConfirmed rfl).trans (if_neg hbound)
  | robinhoodPayoutCompleted h route =>
    have hr : r.booked = 0 := by
      rw [Request.booked_of_destinationConfirmed h, route]
      rfl
    refine Eq.trans (Request.booked_eq_zero rfl (fun h => by cases h) rfl) ?_
    simp [hr]
  | robinhoodSettled h route =>
    have hr : r.booked = 0 := by
      rw [Request.booked_of_destinationConfirmed h, route]
      rfl
    refine Eq.trans (Request.booked_eq_zero rfl (fun h => by cases h) rfl) ?_
    simp [hr]
  | robinhoodSettledGoldcoin h route p hp =>
    have hr : r.booked = (r.netDestination, r.netDestination) := by
      rw [Request.booked_of_destinationConfirmed h, route]
      rfl
    refine Eq.trans (Request.booked_eq_zero rfl (fun h => by cases h) rfl) ?_
    simp [hr, Prod.mk_zero_zero]

/-- A refund that has begun and is not final stays with its parked row. -/
theorem refundTracked (h : Transition op id r r' δ) (hwf : r.Wf) (htracked : r.RefundTracked)
    (hok : r.Accountable id op) : r'.RefundTracked := by
  intro f' hf' hne'
  have hd := h.direction_eq
  have hparked : ∀ f ∈ r.goldcoinRefund, f.state ≠ .refunded → r.state.isParked = true :=
    fun f hf hne => (htracked f hf hne).1
  obtain ⟨-, hs, -, source, hm, reason, hnote, hrefundable⟩ | ⟨f, hf, hne, hcase⟩ :=
    h.openRefund hwf hparked hf' hne'
  · refine ⟨by rw [hs]; rfl, ?_⟩
    rw [hm, hd, hnote]
    exact ParkReason.keepsReservation_of_isGlcRefundable source hrefundable
  · obtain ⟨hs, hkeeps⟩ := htracked f hf hne
    obtain ⟨hm, hcase⟩ | ⟨-, -, hmoved, reason, rfl⟩ | ⟨rfl, hsettled, hconfirmed⟩ := hcase
    · refine ⟨?_, by rwa [hm, hd]⟩
      obtain ⟨hstate, -⟩ | ⟨-, -, hstate⟩ := hcase
      · rwa [hstate]
      · rw [hstate]
        rfl
    · -- a row that holds its reservation is not for the daemon to park
      have hopen : r.state ≠ .settled ∧ r.state ≠ .refunded ∧ r.state ≠ .manualReview := by
        refine ⟨?_, ?_, hmoved⟩ <;>
          · intro hstate
            rw [hstate] at hs
            cases hs
      have hinactive : r.state.isActive = false := by
        revert hs
        cases r.state <;> simp [RequestState.isParked, RequestState.isActive]
      have hholds := (hok rfl hopen).2
      rw [if_neg (by simp [hinactive])] at hholds
      simp [Request.holdsReservation, hs, hkeeps] at hholds
    · obtain howed | hsettled' | ⟨hconfirmed', -⟩ := hok rfl
      · revert hs howed
        cases r.state <;> simp [RequestState.isParked, RequestState.isOwed]
      · exact absurd hsettled' hsettled
      · exact absurd hconfirmed' hconfirmed

end Transition

/-- A new row adds what is booked for it. -/
theorem Inserted.booked {r : Request} {δ : ℤ × ℤ} (h : Inserted r δ) : r.booked = δ := by
  cases h with
  | awaiting _ state => exact Request.booked_of_isWaiting (by rw [state]; rfl)
  | admitted _ _ state => exact Request.booked_of_isOwed (by rw [state]; rfl)
  | parked _ source state note =>
    obtain ⟨reason, hnote, hpark⟩ := note
    exact Request.booked_of_parked_clear (by rw [state]; rfl) hnote
      (ParkReason.keepsReservation_of_isFoldPark source hpark)

theorem Inserted.refundTracked {r : Request} {δ : ℤ × ℤ} (h : Inserted r δ) : r.RefundTracked := by
  have fresh : NewRow r := by cases h <;> assumption
  intro f hf
  rw [fresh.goldcoinRefund] at hf
  cases hf

/-! ## The books of a run -/

/-- The operations of more than one step ask nothing of the rows they move. -/
theorem Request.accountable_of_isCompound {r : Request} {id : ℕ} {op : Op}
    (h : op.isCompound = true) : r.Accountable id op := by
  cases op <;> trivial

/-- An operation that leaves the books of every row in order. -/
def Ledger.Accountable (l : Ledger) (op : Op) : Prop :=
  ∀ id r, l.requests.get? id = some r → r.Accountable id op

/-- The books are those of the requests. -/
structure Ledger.Accounted (l : Ledger) : Prop where
  wf : l.Wf
  tracked : ∀ id r, l.requests.get? id = some r → r.RefundTracked
  row : ∀ id r, l.requests.get? id = some r → (l.books r.direction.destinationReserve).isSome
  books : ∀ d b, l.books d = some b → b = l.requests.sum (Request.bookedOn d)

namespace Effect

variable {op : Op} {l l' : Ledger} {δ : ℤ × ℤ}

/-- A reserve without requests has nothing booked. -/
theorem sum_bookedOn_eq_zero {d : ReserveDirection}
    (hrow : ∀ id r, l.requests.get? id = some r → (l.books r.direction.destinationReserve).isSome)
    (h : l.books d = none) : l.requests.sum (Request.bookedOn d) = 0 := by
  refine Store.sum_eq_zero fun id r hget => ?_
  have hsome := hrow id r hget
  refine if_neg fun hd => ?_
  rw [← hd, h] at hsome
  cases hsome

theorem accounted (h : Effect op l l') (hl : l.Accounted) (hok : l.Accountable op) :
    l'.Accounted := by
  induction h with
  | idle requests books =>
    refine ⟨?_, ?_, ?_, ?_⟩
    · simpa [Ledger.Wf, requests] using hl.wf
    · simpa [requests] using hl.tracked
    · simpa [requests, books] using hl.row
    · simpa [requests, books] using hl.books
  | @configured l l' requests books =>
    have hsome : ∀ d, (l.books d).isSome → (l'.books d).isSome := by
      intro d h
      obtain hd | ⟨-, hd⟩ := books d
      · rwa [hd]
      · rw [hd]
        rfl
    refine ⟨?_, ?_, fun id r hget => ?_, fun d b hb => ?_⟩
    · simpa [Ledger.Wf, requests] using hl.wf
    · simpa [requests] using hl.tracked
    · rw [requests] at hget
      exact hsome _ (hl.row id r hget)
    · rw [requests]
      obtain hd | ⟨hnone, hd⟩ := books d
      · exact hl.books d b (hd ▸ hb)
      · rw [sum_bookedOn_eq_zero hl.row hnone]
        exact (Option.some.inj (hd.symm.trans hb)).symm
  | @inserted l l' r δ h row requests books vault solana recorded window =>
    have heffect : Effect op l l' := .inserted h row requests books vault solana recorded window
    refine ⟨?_, ?_, ?_, fun d b hb => ?_⟩
    · exact heffect.forall_rows (fun _ _ _ hi => hi.wf) (fun _ _ _ _ ht => ht.wf) hl.wf
    · intro k r' hget
      rw [requests, Store.get?_push] at hget
      split_ifs at hget with hk
      · exact Option.some.inj hget ▸ h.refundTracked
      · exact hl.tracked k r' hget
    · intro k r' hget
      rw [requests, Store.get?_push] at hget
      rw [books, Option.isSome_map]
      split_ifs at hget with hk
      · exact Option.some.inj hget ▸ row
      · exact hl.row k r' hget
    · rw [books] at hb
      obtain ⟨b₀, hb₀, rfl⟩ := Option.map_eq_some_iff.mp hb
      rw [requests, Store.sum_push, ← hl.books d b₀ hb₀, Request.bookedOn, h.booked]
  | @moved l l' id r r' δ found h requests books vault =>
    have hd := h.direction_eq
    have hwf := hl.wf id r found
    have htracked := hl.tracked id r found
    have hbooked := h.booked hwf htracked (hok id r found)
    have rows : ∀ k, l'.requests.get? k = if k = id then some r' else l.requests.get? k := by
      intro k
      rw [requests]
      exact Ledger.get?_setRequest found r' k
    refine ⟨?_, ?_, ?_, fun d b hb => ?_⟩
    · have heffect : Effect op l l' := .moved found h requests books vault
      exact heffect.forall_rows (fun _ _ _ hi => hi.wf) (fun _ _ _ _ ht => ht.wf) hl.wf
    · intro k r₁ hget
      rw [rows] at hget
      split_ifs at hget with hk
      · exact Option.some.inj hget ▸ h.refundTracked hwf htracked (hok id r found)
      · exact hl.tracked k r₁ hget
    · intro k r₁ hget
      rw [rows] at hget
      rw [books, Option.isSome_map]
      split_ifs at hget with hk
      · rw [← Option.some.inj hget, hd]
        exact hl.row id r found
      · exact hl.row k r₁ hget
    · rw [books] at hb
      obtain ⟨b₀, hb₀, rfl⟩ := Option.map_eq_some_iff.mp hb
      rw [requests, Store.sum_modify found, ← hl.books d b₀ hb₀, Request.bookedOn, Request.bookedOn,
        hd, hbooked]
      split_ifs <;> simp
  | seq hop _ _ ih₁ ih =>
    exact ih (ih₁ hl hok) fun _ _ _ => Request.accountable_of_isCompound hop

end Effect

namespace Request

/-- What a request reserves on a reserve. -/
def reservedOn (d : ReserveDirection) (r : Request) : ℤ :=
  if d = r.direction.destinationReserve ∧ r.holdsReservation = true then r.netDestination else 0

/-- What a request owes out of a reserve. -/
def owedOn (d : ReserveDirection) (r : Request) : ℤ :=
  if d = r.direction.destinationReserve ∧ r.holdsObligation = true then r.netDestination else 0

theorem bookedOn_eq (d : ReserveDirection) (r : Request) :
    r.bookedOn d = (r.reservedOn d, r.owedOn d) := by
  by_cases hd : d = r.direction.destinationReserve <;>
    simp [bookedOn, reservedOn, owedOn, booked, hd, Prod.mk_zero_zero]

end Request

namespace Ledger

variable {op : Op} {l l' : Ledger} {ops : List Op}

/-- The sums of both books, one at a time. -/
theorem sum_bookedOn (d : ReserveDirection) : l.requests.sum (Request.bookedOn d) =
    (l.requests.sum (Request.reservedOn d), l.requests.sum (Request.owedOn d)) := by
  have hfst := l.requests.map_sum (AddMonoidHom.fst ℤ ℤ) (Request.bookedOn d)
  have hsnd := l.requests.map_sum (AddMonoidHom.snd ℤ ℤ) (Request.bookedOn d)
  simp only [Request.bookedOn_eq, AddMonoidHom.coe_fst, AddMonoidHom.coe_snd] at hfst hsnd
  exact Prod.ext hfst hsnd

theorem accounted_empty : empty.Accounted := by
  have hrequests : ∀ id, empty.requests.get? id = none := fun _ => rfl
  constructor
  · exact wf_empty
  · intro id r h
    rw [hrequests] at h
    cases h
  · intro id r h
    rw [hrequests] at h
    cases h
  · intro d b h
    cases h

theorem Accounted.step (hl : l.Accounted) (hok : l.Accountable op) (h : l.step op = some l') :
    l'.Accounted :=
  (effect_of_step hl.wf h).accounted hl hok

/-- In every run whose operations find their rows as they must, the reserved
liquidity and the pending obligations of every reserve are the sums over the
requests that hold them, and a request that is over holds neither. -/
theorem reservations_accounted
    (hok : ∀ e ∈ Run.history step empty ops, e.1.Accountable e.2) :
    (∀ d v, (after ops).reserves d = some v →
      v.reservedLiquidity = (after ops).requests.sum (Request.reservedOn d) ∧
        v.pendingObligations = (after ops).requests.sum (Request.owedOn d)) ∧
    ∀ id r, (after ops).requests.get? id = some r →
      r.state = .settled ∨ r.state = .refunded ∨ r.state = .closed ∨ r.state = .expired ∨
        r.state = .cancelled →
      ∀ d, r.reservedOn d = 0 ∧ r.owedOn d = 0 := by
  constructor
  · intro d v hv
    have haccounted : (after ops).Accounted :=
      Run.invariant_of_history (fun _ _ _ hl hok h => Accounted.step hl hok h) accounted_empty ops hok
    have hbooks := haccounted.books d (v.reservedLiquidity, v.pendingObligations) (by simp [books, hv])
    rw [sum_bookedOn] at hbooks
    exact Prod.mk.inj hbooks
  · intro id r _ hover d
    have hr : r.booked = 0 := by
      obtain h | h | h | h | h := hover <;>
        exact Request.booked_eq_zero (by rw [h]; rfl) (by simp [h]) (by rw [h]; rfl)
    have hd : r.bookedOn d = 0 := by
      rw [Request.bookedOn, hr, ite_self]
    rw [Request.bookedOn_eq] at hd
    exact Prod.mk.inj hd

/-! ### A deposit that leaks its reservation -/

theorem reservations_accounted_sample :
    ((after [.configureReserve .solanaReserve 5000 0,
        .foldRobinhoodDeposit sampleObservation sampleAmounts (some [2]) true none 100,
        .recordReleaseSubmitted 1 77, .markReleaseConfirmed 1]).reserves .solanaReserve).any
      (fun v => v.reservedLiquidity = 0 ∧ v.settledLiquidityTotal = 1000) ∧
    ∀ d v, (after [.configureReserve .solanaReserve 5000 0,
        .foldRobinhoodDeposit sampleObservation sampleAmounts (some [2]) true none 100,
        .recordReleaseSubmitted 1 77, .markReleaseConfirmed 1]).reserves d = some v →
      v.reservedLiquidity = (after [.configureReserve .solanaReserve 5000 0,
        .foldRobinhoodDeposit sampleObservation sampleAmounts (some [2]) true none 100,
        .recordReleaseSubmitted 1 77, .markReleaseConfirmed 1]).requests.sum
          (Request.reservedOn d) := by
  refine ⟨by decide, fun d v hv => ((reservations_accounted fun e he => ?_).1 d v hv).1⟩
  -- none of these operations asks anything of its row
  have hmem := Run.history_sublist.subset (List.mem_map_of_mem (f := Prod.snd) he)
  intro id r _
  simp only [List.mem_cons, List.not_mem_nil, or_false] at hmem
  obtain h | h | h | h := hmem <;> rw [h] <;> trivial

/-- The deposit is found on a foreign contract, parked, and closed. -/
def leakRun : List Op :=
  [.configureReserve .solanaReserve 5000 0,
    .foldRobinhoodDeposit sampleObservation sampleAmounts (some [2]) true none 100,
    .parkForForeignContract 1,
    .closeManualReview 1 .refundedOutOfBand "reference" "note" 200]

/-- A closed request still counts: whichever requests are said to hold a
reservation, terminal ones excluded, the reserve says otherwise. -/
theorem reservations_leak :
    ((after leakRun).reserves .solanaReserve).map
        (fun v => (v.reservedLiquidity, v.pendingObligations)) = some (1000, 1000) ∧
      ∀ holds : Request → Bool, (∀ r, r.state.isTerminal = true → holds r = false) →
        (after leakRun).requests.sum (fun r => if holds r then r.netDestination else 0) = 0 := by
  refine ⟨by decide, fun holds hholds => Store.sum_eq_zero fun id r hget => ?_⟩
  have hclosed : ((after leakRun).requests.entries.map fun e => e.2.state) = [.closed] := by decide
  have hstate : r.state ∈ (after leakRun).requests.entries.map fun e => e.2.state :=
    List.mem_map_of_mem (f := fun e : ℕ × Request => e.2.state) (Store.mem_of_get? hget)
  rw [hclosed, List.mem_singleton] at hstate
  simp [hholds r (by rw [hstate]; rfl)]

end Ledger

end Service
