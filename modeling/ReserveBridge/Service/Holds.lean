-- SUMMARY: Holds on parked requests: a held row is not resumed, and one that was parked as a rapid burst leaves manual review by a decision that was due, or for its refund by an emergency one.
import ReserveBridge.Service.BeginRefund
import ReserveBridge.Service.Ledger.Unadvanced
import ReserveBridge.Service.Lifecycle

/-!
# Holds

A parked request may be held, by an operator or since it was part of a rapid
burst. A hold ends by a decision. That of a burst may be taken from its
`review_after` on, and neither a hold nor its release replaces it. A refund may
be decided earlier, in an emergency.
-/

namespace Service
open Guard

/-! ## Decisions -/

/-- The automatic resumptions of a request. -/
def Op.Resumes (id : ℕ) : Op → Prop
  | .resumeManualReview _ k _ | .resumeGlcToSolDestinationBound k _ => k = id
  | _ => False

/-- The operator decides on a request, at a time: to process it, to refund it or to
close it. -/
def Op.DecidesOn (id : ℕ) (now : ℤ) (op : Op) : Prop :=
  (∃ decision, op.Decides id decision false now) ∨
    ∃ disposition reference note, op = .closeManualReview id disposition reference note now

/-- A refund decided in an emergency. -/
def Op.EmergencyRefund (id : ℕ) (op : Op) : Prop := ∃ now, op.Decides id .refund true now

/-- The decision on a burst was recorded by an operation of `done`, when it was
due, or as an emergency refund. -/
def Request.DecisionIn (r : Request) (id : ℕ) (done : List Op) : Prop :=
  r.disposition = .rapidBurstHold → ∀ decision ∈ r.operatorDecision,
    (∃ now, r.reviewAvailable now ∧ ∃ op ∈ done, op.Decides id decision false now) ∨
    (decision = .refund ∧ ∃ op ∈ done, op.EmergencyRefund id)

/-! ## The row invariant -/

/-- The holds of a row. -/
structure Request.HoldsKept (r : Request) : Prop where
  /-- Nothing is held, decided or refunded before the deposit is final. -/
  early : r.isEarly = true →
    (r.disposition = .normal ∧ r.holdNote = false) ∧ r.operatorDecision = none ∧
      r.goldcoinRefund = none ∧ r.Unadvanced
  undecided : r.disposition = .rapidBurstHold → r.operatorDecision = none →
    r.goldcoinRefund = none
  unprocessed : r.disposition = .rapidBurstHold → r.operatorDecision ≠ some .process →
    r.holdNote = true ∧ r.Unadvanced
  released : r.disposition = .rapidBurstHold → r.operatorDecision ≠ some .release

theorem Inserted.holdsKept {r : Request} {δ : ℤ × ℤ} (h : Inserted r δ) : r.HoldsKept := by
  have fresh : NewRow r := h.newRow
  have hnew (hstate : r.state.isPastManualReview = false) : r.Unadvanced := by
    refine ⟨hstate, fun e he => ?_, fresh.destinationTxid, ?_, by rw [fresh.robinhoodTx]⟩
    · rcases fresh.log e he with hnext | hnext
      · rw [hnext, hstate]
      · rw [hnext]
        rfl
    · intro p hp
      rw [fresh.goldcoinPayout] at hp
      cases hp
  constructor
  · intro hearly
    have hnormal : r.disposition = .normal ∧ r.holdNote = false := by
      obtain hnormal | ⟨-, -, hstate⟩ := fresh.hold
      · exact hnormal
      · rw [Request.isEarly, hstate] at hearly
        cases hearly
    refine ⟨hnormal, fresh.operatorDecision, fresh.goldcoinRefund, hnew ?_⟩
    revert hearly
    rw [Request.isEarly]
    cases r.state <;> simp [RequestState.isPastManualReview]
  · intro hburst _
    obtain ⟨hnormal, -⟩ | ⟨-, -, hstate⟩ := fresh.hold
    · rw [hnormal] at hburst
      cases hburst
    · exact fresh.goldcoinRefund
  · intro hburst _
    obtain ⟨hnormal, -⟩ | ⟨-, hnote, hstate⟩ := fresh.hold
    · rw [hnormal] at hburst
      cases hburst
    · exact ⟨hnote, hnew (by rw [hstate]; rfl)⟩
  · intro _ hreleased
    rw [fresh.operatorDecision] at hreleased
    cases hreleased

namespace Transition

variable {op : Op} {id : ℕ} {r r' : Request} {δ : ℤ × ℤ} {done : List Op}

/-- The columns of a hold are left alone, unless the deposit is observed or the row
is reviewed. -/
theorem hold_columns (h : Transition op id r r' δ) :
    (r'.disposition = r.disposition ∧ r'.holdNote = r.holdNote ∧
      r'.operatorDecision = r.operatorDecision ∧ r'.reviewAfter = r.reviewAfter) ∨
    (r.isEarly = true ∧ r'.operatorDecision = r.operatorDecision ∧
      ((r'.disposition = r.disposition ∧ r'.holdNote = r.holdNote) ∨
        (r'.disposition = .rapidBurstHold ∧ r'.holdNote = true ∧ r'.state = .manualReview))) ∨
    (Reviewed op id r r'.holdNote r'.disposition r'.operatorDecision r'.reviewAfter ∧
      (op ≠ .clearManualReviewHold id → r.state = .manualReview) ∧ r'.state = r.state) := by
  cases h with
  | @observed _ _ _ r₀ r₁ _ _ _ _ _ h₀ h₁ h =>
    have hearly : r.isEarly = true := by
      cases h₀ with
      | awaiting h => rw [Request.isEarly, h]
      | readmitted h => rw [Request.isEarly, h]
    have hsame : r₁.disposition = r.disposition ∧ r₁.holdNote = r.holdNote := by
      cases h₁ <;> cases h₀ <;> exact ⟨rfl, rfl⟩
    have hdecision := ((h₀.rows.trans h₁.rows).trans h.rows).operatorDecision
    refine .inr (.inl ⟨hearly, hdecision, ?_⟩)
    rw [← hsame.1, ← hsame.2]
    exact h.hold
  | reviewed h _ _ _ _ review => exact .inr (.inr ⟨review, h, rfl⟩)
  | solanaRefundBroadcast | releaseConfirmed | robinhoodPayoutSettled =>
    left
    split_ifs <;> exact ⟨rfl, rfl, rfl, rfl⟩
  | _ => exact .inl ⟨rfl, rfl, rfl, rfl⟩

/-- No transition leads back to the early states. -/
theorem early (h : Transition op id r r' δ) (hearly : r'.isEarly = true) : r.isEarly = true := by
  cases h with
  | expired h => rw [Request.isEarly, h]
  | observed _ _ h₀ =>
    cases h₀ with
    | awaiting h => rw [Request.isEarly, h]
    | readmitted h => rw [Request.isEarly, h]
  | reorged h => rcases h with h | h <;> rw [Request.isEarly, h]
  | confirmations | reviewed | releaseAttested | payoutBuilt | payoutConfirmations
  | completionSubmitted | goldcoinRefundSigned | robinhoodTx => exact hearly
  | solanaRefundBroadcast =>
    split_ifs at hearly
    · exact (Bool.false_ne_true hearly).elim
    · exact hearly
  | releaseConfirmed | robinhoodPayoutSettled =>
    split_ifs at hearly <;> exact (Bool.false_ne_true hearly).elim
  | _ => exact (Bool.false_ne_true hearly).elim

/-- A refund out of the vault is begun on the way to `refundPending`, past the
hold. -/
theorem goldcoinRefund_eq_none (h : Transition op id r r' δ) (hnone : r.goldcoinRefund = none) :
    r'.goldcoinRefund = none ∨ (r'.state = .refundPending ∧ r.RefundDecided) := by
  have kept (hf : r'.goldcoinRefund = r.goldcoinRefund) :
      r'.goldcoinRefund = none ∨ (r'.state = .refundPending ∧ r.RefundDecided) :=
    .inl (hf.trans hnone)
  cases h with
  | observed _ _ h₀ h₁ h => exact kept ((h₀.rows.trans h₁.rows).trans h.rows).goldcoinRefund
  | goldcoinRefundBegun _ _ _ _ _ decided => exact .inr ⟨rfl, decided⟩
  | goldcoinRefundSigned hf | goldcoinRefundBroadcast _ hf | goldcoinRefundConfirmed _ hf =>
    rw [hnone] at hf
    cases hf
  | solanaRefundBroadcast | releaseConfirmed | robinhoodPayoutSettled =>
    exact kept (by split_ifs <;> rfl)
  | _ => exact kept rfl

/-- How a burst leaves manual review. -/
theorem leaves (h : Transition op id r r' δ) (hr : r.HoldsKept) (hok : r.Called id op)
    (hburst : r.disposition = .rapidBurstHold) (hstate : r.state = .manualReview)
    (hleave : r'.state ≠ .manualReview) :
    (∃ now, r.reviewAvailable now ∧ op.DecidesOn id now ∧ r'.state = .closed) ∨
      r.operatorDecision = some .process ∨
      (r.operatorDecision = some .refund ∧ op.isCompound = false ∧
        r'.state.isRefundLifecycle = true) := by
  by_cases hprocess : r.operatorDecision = some .process
  · exact .inr (.inl hprocess)
  obtain ⟨hnote, hunadvanced⟩ := hr.unprocessed hburst hprocess
  -- what starts elsewhere, or stays, does not apply
  have other {state : RequestState} (h : r.state = state) (hne : state ≠ .manualReview) : False :=
    hne (h ▸ hstate)
  have refund (hdecision : r.operatorDecision = some .refund) (hop : op.isCompound = false)
      (hnext : r'.state.isRefundLifecycle = true) :
      (∃ now, r.reviewAvailable now ∧ op.DecidesOn id now ∧ r'.state = .closed) ∨
        r.operatorDecision = some .process ∨
        (r.operatorDecision = some .refund ∧ op.isCompound = false ∧
          r'.state.isRefundLifecycle = true) :=
    .inr (.inr ⟨hdecision, hop, hnext⟩)
  -- a Goldcoin refund under way was decided
  have decided {f : GoldcoinRefund} (hf : r.goldcoinRefund = some f) :
      r.operatorDecision = some .refund := by
    cases hdecision : r.operatorDecision with
    | none =>
      rw [hr.undecided hburst hdecision] at hf
      cases hf
    | some decision =>
      cases decision with
      | process => exact absurd hdecision hprocess
      | refund => rfl
      | release => exact absurd hdecision (hr.released hburst)
  have held (unheld : r.Unheld) : False := by
    rw [unheld.1] at hnote
    cases hnote
  cases h with
  | expired h => exact (other h (by decide)).elim
  | cancelled h => rcases h with h | h <;> exact (other h (by decide)).elim
  | lateDeposit | spentBeforeFinalized | parkedForBounds | parkedForContract | refundReturned
  | robinhoodParked => exact (hleave rfl).elim
  | observed _ _ h₀ =>
    cases h₀ with
    | awaiting h => exact (other h (by decide)).elim
    | readmitted h => exact (other h (by decide)).elim
  | finalized h => exact (other h (by decide)).elim
  | reorged h => rcases h with h | h <;> exact (other h (by decide)).elim
  | confirmations | reviewed | goldcoinRefundSigned | releaseAttested | payoutBuilt
  | payoutConfirmations | completionSubmitted | robinhoodTx => exact (hleave hstate).elim
  | resumed _ _ _ _ _ _ _ unheld => exact (held unheld).elim
  | resumedBounds _ _ _ _ _ unheld => exact (held unheld).elim
  | @closed _ _ _ now hop _ _ due =>
    exact .inl ⟨now, due hburst, .inr ⟨_, _, _, hop⟩, rfl⟩
  | solanaRefundBegun _ _ _ f _ hop decided =>
    obtain ⟨_, _, rfl⟩ := hop
    exact refund (decided (.inr (by simp [hburst]))) rfl rfl
  | solanaRefundBroadcast _ h => rcases h with h | h <;> exact (other h (by decide)).elim
  | solanaRefundConfirmed _ h => exact (other h (by decide)).elim
  | goldcoinRefundBegun _ _ _ _ hop decided =>
    obtain ⟨_, _, rfl⟩ := hop
    exact refund (decided (.inr (by simp [hburst]))) rfl rfl
  | goldcoinRefundBroadcast hop hf => exact refund (decided hf) (hop ▸ rfl) rfl
  | goldcoinRefundConfirmed hop hf =>
    refine refund (decided hf) ?_ rfl
    rcases hop with rfl | ⟨_, _, rfl⟩ <;> rfl
  | robinhoodRefundPending _ _ hop =>
    subst hop
    exact refund (hok rfl hburst) rfl rfl
  | robinhoodRefundConfirmed _ h => rcases h with h | h <;> exact (other h (by decide)).elim
  | releaseSubmitted h => exact (other h (by decide)).elim
  | releaseConfirmed h => exact (other h (by decide)).elim
  | payoutSigned _ _ h => exact (other h (by decide)).elim
  | payoutBroadcast _ _ h => exact (other h (by decide)).elim
  | payoutConfirmed _ _ hp hp' =>
    have hbuilt := hunadvanced.goldcoinPayout _ hp
    rw [hp'] at hbuilt
    cases hbuilt
  | completionConfirmed h => exact (other h (by decide)).elim
  | robinhoodPayoutSettled hop =>
    subst hop
    have hsome := hok rfl
    rw [hunadvanced.robinhoodPayout] at hsome
    cases hsome
  | robinhoodPayoutCompleted h => exact (other h (by decide)).elim
  | robinhoodSettled h => exact (other h (by decide)).elim
  | robinhoodSettledGoldcoin h => exact (other h (by decide)).elim

/-- How a row comes to be a burst: it was one already, its deposit was just
observed, or it was just decided. -/
theorem burst_cases (h : Transition op id r r' δ) (hr : r.HoldsKept)
    (hburst : r'.disposition = .rapidBurstHold) :
    (r.disposition = .rapidBurstHold ∧ r'.holdNote = r.holdNote ∧
      r'.operatorDecision = r.operatorDecision ∧ r'.reviewAfter = r.reviewAfter) ∨
    (r.isEarly = true ∧ r'.operatorDecision = none ∧ r'.holdNote = true ∧
      r'.state = .manualReview) ∨
    (r.disposition = .rapidBurstHold ∧ r.operatorDecision = none ∧
      ∃ decision emergency now, op.Decides id decision emergency now ∧ decision ≠ .release ∧
        (emergency = true → decision = .refund) ∧ (emergency = false → r.reviewAvailable now) ∧
        r'.holdNote = (if decision = .process then false else r.holdNote) ∧
        r'.operatorDecision = some decision ∧ r'.reviewAfter = r.reviewAfter) := by
  obtain ⟨hsame, hrest⟩ | ⟨hearly, hdecision, hhold⟩ | ⟨hreview, -, -⟩ := h.hold_columns
  · exact .inl ⟨hsame ▸ hburst, hrest⟩
  · obtain ⟨⟨hnormal, -⟩, hnone, -⟩ := hr.early hearly
    obtain ⟨hsame, -⟩ | ⟨-, hnote, hstate⟩ := hhold
    · rw [hsame, hnormal] at hburst
      cases hburst
    · exact .inr (.inl ⟨hearly, hdecision.trans hnone, hnote, hstate⟩)
  · right
    right
    revert hreview hburst
    generalize r'.holdNote = note, r'.disposition = disposition,
      r'.operatorDecision = decision', r'.reviewAfter = reviewAfter
    intro hburst hreview
    cases hreview with
    | held => cases hburst
    | released => cases hburst
    | @decided decision emergency now hop h hold refund due =>
      exact ⟨hburst, hold.2, decision, emergency, now, hop, h, refund, due hburst, rfl, rfl, rfl⟩

/-- A burst that is not to be processed does not advance. -/
theorem unprocessed_kept (h : Transition op id r r' δ) (hr : r.HoldsKept) (hok : r.Called id op)
    (hburst : r.disposition = .rapidBurstHold) (hprocess : r.operatorDecision ≠ some .process) :
    r'.Unadvanced := by
  obtain ⟨hnote, hunadvanced⟩ := hr.unprocessed hburst hprocess
  rcases h.unadvanced hunadvanced hok with hkept | ⟨-, hadvances⟩
  · exact hkept
  · cases hadvances with
    | finalized h =>
      have hnormal := (hr.early (by rw [Request.isEarly, h])).1.1
      rw [hnormal] at hburst
      cases hburst
    | resumed _ _ unheld =>
      rw [unheld.1] at hnote
      cases hnote

theorem holdsKept (h : Transition op id r r' δ) (hr : r.HoldsKept) (hok : r.Called id op) :
    r'.HoldsKept := by
  -- an early row that goes on has not advanced
  have hon (hearly : r.isEarly = true) (hstate : r'.state ≠ .sourceFinalized) : r'.Unadvanced :=
    (h.unadvanced (hr.early hearly).2.2.2 hok).resolve_right fun hnext => hstate hnext.1
  constructor
  · intro hearly'
    have hearly := h.early hearly'
    obtain ⟨⟨hnormal, hnote⟩, hnone, hrefund, -⟩ := hr.early hearly
    have late {state : RequestState} (hstate : r'.state = state)
        (hlate : Request.isEarly { r' with state := state } = false) : False := by
      subst hstate
      exact Bool.false_ne_true (hlate.symm.trans hearly')
    have hcolumns : (r'.disposition = .normal ∧ r'.holdNote = false) ∧
        r'.operatorDecision = none := by
      obtain ⟨hd, hn, hdecision, -⟩ | ⟨-, hdecision, ⟨hd, hn⟩ | ⟨-, -, hstate⟩⟩ |
          ⟨hreview, hparked, hstate⟩ := h.hold_columns
      · exact ⟨⟨hd.trans hnormal, hn.trans hnote⟩, hdecision.trans hnone⟩
      · exact ⟨⟨hd.trans hnormal, hn.trans hnote⟩, hdecision.trans hnone⟩
      · exact (late hstate rfl).elim
      · -- only a row in manual review, or a held one, is reviewed
        have hclear : op = .clearManualReviewHold id := by
          by_contra hne
          exact late (hstate.trans (hparked hne)) rfl
        subst hclear
        revert hreview
        generalize r'.holdNote = note, r'.disposition = disposition,
          r'.operatorDecision = decision, r'.reviewAfter = reviewAfter
        intro hreview
        cases hreview with
        | held hop => cases hop
        | released _ _ hold => simp [hnormal, hnote] at hold
        | decided hop => exact hop.elim
    refine ⟨hcolumns.1, hcolumns.2, ?_, hon hearly fun h => late h rfl⟩
    exact (h.goldcoinRefund_eq_none hrefund).resolve_right fun hbegun => late hbegun.1 rfl
  · intro hburst hnone
    obtain ⟨hburst₀, -, hdecision, -⟩ | ⟨hearly, -, -, hstate⟩ | ⟨-, -, _, _, _, -, -, -, -, -, hsome, -⟩ :=
      h.burst_cases hr hburst
    · have hnone₀ := hdecision.symm.trans hnone
      refine (h.goldcoinRefund_eq_none (hr.undecided hburst₀ hnone₀)).resolve_right fun hdecided => ?_
      have hrefund := hdecided.2 (.inr (by simp [hburst₀]))
      rw [hnone₀] at hrefund
      cases hrefund
    · refine (h.goldcoinRefund_eq_none (hr.early hearly).2.2.1).resolve_right fun hdecided => ?_
      rw [hdecided.1] at hstate
      cases hstate
    · rw [hnone] at hsome
      cases hsome
  · intro hburst hprocess
    obtain ⟨hburst₀, hnote, hdecision, -⟩ | ⟨hearly, -, hnote, hstate⟩ |
        ⟨hburst₀, hnone₀, decision, _, _, -, -, -, -, hnote, hsome, -⟩ := h.burst_cases hr hburst
    · rw [hdecision] at hprocess
      exact ⟨hnote.trans (hr.unprocessed hburst₀ hprocess).1, h.unprocessed_kept hr hok hburst₀ hprocess⟩
    · exact ⟨hnote, hon hearly (by simp [hstate])⟩
    · have hprocess₀ : r.operatorDecision ≠ some .process := by simp [hnone₀]
      have hother : decision ≠ .process := fun h => hprocess (by rw [hsome, h])
      rw [if_neg hother] at hnote
      exact ⟨hnote.trans (hr.unprocessed hburst₀ hprocess₀).1,
        h.unprocessed_kept hr hok hburst₀ hprocess₀⟩
  · intro hburst
    obtain ⟨hburst₀, -, hdecision, -⟩ | ⟨-, hnone, -, -⟩ |
        ⟨-, -, decision, _, _, -, hrelease, -, -, -, hsome, -⟩ := h.burst_cases hr hburst
    · rw [hdecision]
      exact hr.released hburst₀
    · simp [hnone]
    · simpa [hsome] using hrelease

/-- A burst stays one, with its `review_after`. -/
theorem burst_kept (h : Transition op id r r' δ) (hr : r.HoldsKept)
    (hburst : r.disposition = .rapidBurstHold) :
    r'.disposition = .rapidBurstHold ∧ r'.reviewAfter = r.reviewAfter := by
  obtain ⟨hsame, -, -, hreview⟩ | ⟨hearly, -⟩ | ⟨hreview, -⟩ := h.hold_columns
  · exact ⟨hsame.trans hburst, hreview⟩
  · rw [(hr.early hearly).1.1] at hburst
    cases hburst
  · revert hreview
    generalize r'.holdNote = note, r'.disposition = disposition,
      r'.operatorDecision = decision, r'.reviewAfter = reviewAfter
    intro hreview
    cases hreview with
    | held _ h => exact absurd hburst h
    | released _ h => exact absurd hburst h
    | decided => exact ⟨hburst, rfl⟩

/-- The same, over the moves of a compound operation. -/
theorem burst_path (hcompound : op.isCompound = true)
    (hpath : Relation.ReflTransGen (fun a b => ∃ δ, Transition op id a b δ) r r')
    (hr : r.HoldsKept) (hburst : r.disposition = .rapidBurstHold) :
    r'.HoldsKept ∧ r'.disposition = .rapidBurstHold ∧ r'.reviewAfter = r.reviewAfter := by
  induction hpath with
  | refl => exact ⟨hr, hburst, rfl⟩
  | tail _ hstep ih =>
    obtain ⟨δ, h⟩ := hstep
    obtain ⟨hr₁, hburst₁, hreview₁⟩ := ih
    obtain ⟨hburst', hreview'⟩ := h.burst_kept hr₁ hburst₁
    exact ⟨h.holdsKept hr₁ (Request.called_of_isCompound hcompound), hburst',
      hreview'.trans hreview₁⟩

/-- A late row whose refund is decided, should it be a burst, stays one: what is
decided on a burst is not replaced, and only an early row becomes a burst. -/
theorem refund_decided (h : Transition op id r r' δ) (hlate : r.isEarly = false)
    (hdecided : r.disposition = .rapidBurstHold → r.operatorDecision = some .refund) :
    r'.isEarly = false ∧
      (r'.disposition = .rapidBurstHold → r'.operatorDecision = some .refund) := by
  have hlate' : r'.isEarly = false := by
    by_contra hearly
    rw [h.early (Bool.not_eq_false _ ▸ hearly)] at hlate
    cases hlate
  refine ⟨hlate', fun hburst => ?_⟩
  obtain ⟨hsame, -, hdecision, -⟩ | ⟨hearly, -⟩ | ⟨hreview, -⟩ := h.hold_columns
  · exact hdecision.trans (hdecided (hsame ▸ hburst))
  · rw [hearly] at hlate
    cases hlate
  · revert hreview hburst
    generalize r'.holdNote = note, r'.disposition = disposition,
      r'.operatorDecision = decision', r'.reviewAfter = reviewAfter
    intro hburst hreview
    cases hreview with
    | held => cases hburst
    | released => cases hburst
    | decided _ _ hold =>
      have hnone := hold.2
      rw [hdecided hburst] at hnone
      cases hnone

theorem decisionIn (h : Transition op id r r' δ) (hr : r.HoldsKept) (hop : op ∈ done)
    (hdone : r.DecisionIn id done) : r'.DecisionIn id done := by
  intro hburst decision hdecision
  obtain ⟨hburst₀, -, hsame, hreview⟩ | ⟨-, hnone, -⟩ |
      ⟨-, -, decision₀, emergency, now, hdecides, -, hrefund, hdue, -, hsome, hreview⟩ :=
    h.burst_cases hr hburst
  · rw [hsame] at hdecision
    simp only [Request.reviewAvailable, hreview]
    exact hdone hburst₀ decision hdecision
  · rw [hnone] at hdecision
    cases hdecision
  · obtain rfl := Option.some.inj (hsome.symm.trans hdecision)
    simp only [Request.reviewAvailable, hreview]
    cases emergency with
    | false => exact .inl ⟨now, hdue rfl, op, hop, hdecides⟩
    | true =>
      obtain rfl := hrefund rfl
      exact .inr ⟨rfl, op, hop, now, hdecides⟩

end Transition

theorem Request.Unheld.not_isHeld {r : Request} (h : r.Unheld) : ¬ r.isHeld := by
  rintro ⟨hnote | hdisposition, hnone⟩
  · rw [h.1] at hnote
    cases hnote
  · exact h.2 hdisposition hnone

theorem Request.DecisionIn.mono {r : Request} {id : ℕ} {done done' : List Op}
    (h : r.DecisionIn id done) (hsub : done ⊆ done') : r.DecisionIn id done' := by
  intro hburst decision hdecision
  obtain ⟨now, hdue, o, ho, hdecides⟩ | ⟨hrefund, o, ho, hemergency⟩ := h hburst decision hdecision
  · exact .inl ⟨now, hdue, o, hsub ho, hdecides⟩
  · exact .inr ⟨hrefund, o, hsub ho, hemergency⟩

/-! ## Along a run -/

/-- The invariant of a run that did the operations of `done`. -/
structure Ledger.HoldsKept (l : Ledger) (done : List Op) : Prop where
  wf : l.Wf
  rows : ∀ id r, l.requests.get? id = some r → r.HoldsKept ∧ r.DecisionIn id done

namespace Effect

variable {op : Op} {l l' : Ledger} {id : ℕ} {r r' : Request} {done : List Op}

theorem holdsKept (h : Effect op l l') (hop : op ∈ done) (hl : l.HoldsKept done)
    (hok : l.Called op) : l'.HoldsKept done := by
  refine ⟨h.forall_rows (fun _ _ _ hi => hi.wf) (fun _ _ _ _ ht => ht.wf) hl.wf, ?_⟩
  refine h.forall_rows_found (fun id r δ hi => ⟨hi.holdsKept, ?_⟩)
    (fun id r r' δ hfound ht ⟨hr, hdone⟩ => ?_) hl.rows
  · intro _ decision hdecision
    rw [hi.newRow.operatorDecision] at hdecision
    cases hdecision
  · have hcalled : r.Called id op := by
      cases hcompound : op.isCompound with
      | true => exact Request.called_of_isCompound hcompound
      | false => exact hok id r (hfound hcompound)
    exact ⟨ht.holdsKept hr hcalled, ht.decisionIn hr hop hdone⟩

/-- How a burst leaves manual review in a step. -/
theorem leaves (h : Effect op l l') (hop : op ∈ done) (hl : l.HoldsKept done) (hok : l.Called op)
    (hget : l.requests.get? id = some r) (hget' : l'.requests.get? id = some r')
    (hburst : r.disposition = .rapidBurstHold) (hstate : r.state = .manualReview)
    (hleave : r'.state ≠ .manualReview) :
    (∃ now, r.reviewAvailable now ∧ ∃ o ∈ done, o.DecidesOn id now) ∨
      (op.isCompound = false ∧ r'.state.isRefundLifecycle = true ∧
        ∃ o ∈ done, o.EmergencyRefund id) := by
  have stays {l' : Ledger} {r r' : Request} (hget' : l'.requests.get? id = some r')
      (hstate : r.state = .manualReview) (hleave : r'.state ≠ .manualReview)
      (hsame : l'.requests.get? id = some r) : False := by
    obtain rfl := Option.some.inj (hsame.symm.trans hget')
    exact hleave hstate
  induction h generalizing r r' with
  | idle requests => exact (stays hget' hstate hleave (requests ▸ hget)).elim
  | configured requests => exact (stays hget' hstate hleave (requests ▸ hget)).elim
  | inserted h row requests =>
    exact (stays hget' hstate hleave (requests ▸ Store.get?_push_of_some hget)).elim
  | @moved l l' k r₁ r₂ δ found h requests =>
    have rows : l'.requests.get? id = if id = k then some r₂ else l.requests.get? id := by
      rw [requests]
      exact Ledger.get?_setRequest found r₂ id
    by_cases hk : id = k
    · subst hk
      obtain rfl := Option.some.inj (hget.symm.trans found)
      rw [if_pos rfl, hget'] at rows
      obtain rfl := Option.some.inj rows
      obtain ⟨hr, hdone⟩ := hl.rows id r found
      obtain ⟨now, hdue, hdecides, -⟩ | hprocess | ⟨hrefund, hsimple, hlifecycle⟩ :=
        h.leaves hr (hok id r found) hburst hstate hleave
      · exact .inl ⟨now, hdue, op, hop, hdecides⟩
      · obtain ⟨now, hdue, o, ho, hdecides⟩ | ⟨hrefund, -⟩ := hdone hburst _ hprocess
        · exact .inl ⟨now, hdue, o, ho, .inl ⟨_, hdecides⟩⟩
        · cases hrefund
      · obtain ⟨now, hdue, o, ho, hdecides⟩ | ⟨-, hemergency⟩ := hdone hburst _ hrefund
        · exact .inl ⟨now, hdue, o, ho, .inl ⟨_, hdecides⟩⟩
        · exact .inr ⟨hsimple, hlifecycle, hemergency⟩
    · rw [if_neg hk] at rows
      exact (stays hget' hstate hleave (rows.trans hget)).elim
  | @seq l l₁ l' hcompound h₁ h ih₁ ih =>
    obtain ⟨r₁, hget₁, hpath⟩ := h₁.row hget
    by_cases hstate₁ : r₁.state = .manualReview
    · -- it is still parked, and the same burst
      obtain ⟨-, hburst₁, hreview⟩ :=
        Transition.burst_path hcompound hpath (hl.rows id r hget).1 hburst
      have hcalled : l₁.Called op := fun _ _ _ => Request.called_of_isCompound hcompound
      have hrest := ih (h₁.holdsKept hop hl hok) hcalled hget₁ hget' hburst₁ hstate₁ hleave
      simp only [Request.reviewAvailable, hreview] at hrest
      exact hrest
    · obtain hdecided | ⟨hsimple, -⟩ := ih₁ hl hok hget hget₁ hburst hstate hstate₁
      · exact .inl hdecided
      · rw [hcompound] at hsimple
        cases hsimple

end Effect

/-- A refund of `begin_refund` is past the hold. -/
theorem Settler.check_refundDecided {s : Settler} {l : Ledger} {id : ℕ} {c : RefundCall}
    (h : s.check l id = .ok (some c)) :
    ∃ r, l.requests.get? id = some r ∧ r.state = .manualReview ∧ r.RefundDecided := by
  simp only [check, bind_eq_ok, mapError_eq_ok, Ledger.request_eq_ok] at h
  obtain ⟨r, hget, h⟩ := h
  split_ifs at h
  · simp [pure, Except.pure] at h
  · simp only [bind_eq_ok, require_eq_ok, exists_unit, mapError_eq_ok] at h
    obtain ⟨-, -, hstate, -, -, hdecided, -⟩ := h
    exact ⟨r, hget, hstate, (Ledger.refuseUnlessDecided_eq_ok hget).mp hdecided⟩

namespace Ledger

variable {l l' : Ledger} {ops : List Op} {op : Op} {id : ℕ} {r r' : Request}

/-- A held row is not resumed. -/
theorem not_isHeld_of_resumes (hop : op.Resumes id) (h : l.step op = some l')
    (hget : l.requests.get? id = some r) : ¬ r.isHeld := by
  rw [step, toOption_eq_some] at h
  suffices hunheld : l.refuseIfAutoResumeHeld id = .ok () from
    Request.Unheld.not_isHeld ((refuseIfAutoResumeHeld_eq_ok hget).mp hunheld)
  cases op with
  | resumeManualReview expected k now =>
    obtain rfl : k = id := hop
    cases expected with
    | solToGlc | rhnToGlc =>
      simp only [run, resumeManualReview, resumeManualReviewInbound, bind_eq_ok, exists_unit] at h
      exact h.1
    | solToRhn | rhnToSol =>
      simp only [run, resumeManualReview, resumeManualReviewCrossRoute, bind_eq_ok, exists_unit] at h
      exact h.1
    | glcToSol | glcToRhn => cases h
  | resumeGlcToSolDestinationBound k live =>
    obtain rfl : k = id := hop
    simp only [run, resumeGlcToSolDestinationBound, bind_eq_ok, exists_unit] at h
    obtain ⟨_, -, hheld, -⟩ := h
    exact hheld
  | _ => exact hop.elim

theorem HoldsKept.mono {done done' : List Op} (hl : l.HoldsKept done) (hsub : done ⊆ done') :
    l.HoldsKept done' :=
  ⟨hl.wf, fun k r hget => ⟨(hl.rows k r hget).1, (hl.rows k r hget).2.mono hsub⟩⟩

theorem HoldsKept.step {done : List Op} (hl : l.HoldsKept done) (hok : l.Called op)
    (h : l.step op = some l') : l'.HoldsKept (done ++ [op]) :=
  (effect_of_step hl.wf h).holdsKept (List.mem_append_right _ List.mem_cons_self)
    (hl.mono (List.subset_append_left _ _)) hok

theorem holdsKept_after (hok : ∀ e ∈ Run.history step empty ops, e.1.Called e.2) :
    (after ops).HoldsKept ((Run.history step empty ops).map Prod.snd) := by
  induction ops using List.reverseRecOn with
  | nil =>
    refine ⟨wf_empty, fun id r h => ?_⟩
    cases h
  | append_singleton ops op ih =>
    rw [Run.history_append] at hok ⊢
    have hl := ih fun e he => hok e (List.mem_append_left _ he)
    rw [after, Run.final_append]
    cases h : (Run.final step empty ops).step op with
    | none =>
      rw [Run.history_cons_of_none h, Run.history_nil, List.append_nil, Run.final_cons,
        Run.advance_of_none h]
      exact hl
    | some l' =>
      rw [Run.history_cons_of_some h] at hok ⊢
      rw [Run.history_nil, List.map_append, Run.final_cons, Run.advance_of_some h]
      exact hl.step (hok _ (List.mem_append_right _ List.mem_cons_self)) h

/-- In every run whose callers looked at what they are for: a held request is not
resumed, and a request that was parked as a rapid burst leaves manual review only
after a decision on it that was made when its review was due, or for its refund,
after an emergency decision to refund it. -/
theorem holds_bind (hok : ∀ e ∈ Run.history step empty (ops ++ [op]), e.1.Called e.2)
    (hstep : (after ops).step op = some l') (hget : (after ops).requests.get? id = some r)
    (hget' : l'.requests.get? id = some r') :
    (r.isHeld → ¬ op.Resumes id) ∧
    (r.disposition = .rapidBurstHold → r.state = .manualReview → r'.state ≠ .manualReview →
      (∃ now, r.reviewAvailable now ∧
        ∃ e ∈ Run.history step empty (ops ++ [op]), e.2.DecidesOn id now) ∨
      (r'.state.isRefundLifecycle = true ∧
        ∃ e ∈ Run.history step empty (ops ++ [op]), e.2.EmergencyRefund id)) := by
  refine ⟨fun hheld hresumes => not_isHeld_of_resumes hresumes hstep hget hheld,
    fun hburst hstate hleave => ?_⟩
  rw [Run.history_append, Run.history_cons_of_some hstep, Run.history_nil] at hok ⊢
  have hl := holdsKept_after fun e he => hok e (List.mem_append_left _ he)
  have hcalled := hok _ (List.mem_append_right _ List.mem_cons_self)
  have hmem : op ∈ (Run.history step empty ops).map Prod.snd ++ [op] :=
    List.mem_append_right _ List.mem_cons_self
  -- what was done is the second half of the history
  have hdone {P : Op → Prop} (h : ∃ o ∈ (Run.history step empty ops).map Prod.snd ++ [op], P o) :
      ∃ e ∈ Run.history step empty ops ++ [(after ops, op)], P e.2 := by
    obtain ⟨o, ho, hP⟩ := h
    have ho' : o ∈ (Run.history step empty ops ++ [(after ops, op)]).map Prod.snd := by
      rw [List.map_append]
      exact ho
    obtain ⟨e, he, rfl⟩ := List.mem_map.mp ho'
    exact ⟨e, he, hP⟩
  obtain ⟨now, hdue, hdecides⟩ | ⟨-, hlifecycle, hemergency⟩ :=
    (effect_of_step hl.wf hstep).leaves hmem (hl.mono (List.subset_append_left _ _)) hcalled hget
      hget' hburst hstate hleave
  · exact .inl ⟨now, hdue, hdone hdecides⟩
  · exact .inr ⟨hlifecycle, hdone hemergency⟩

/-! ### The refund of a deposit out of the custody contract -/

/-- The row is past its early states, and its refund is decided should it be a
burst. -/
def RefundDecided (l : Ledger) (id : ℕ) : Prop :=
  ∃ r, l.requests.get? id = some r ∧ r.isEarly = false ∧
    (r.disposition = .rapidBurstHold → r.operatorDecision = some .refund)

theorem RefundDecided.step (hl : l.RefundDecided id) (hwf : l.Wf) (h : l.step op = some l') :
    l'.RefundDecided id := by
  obtain ⟨r, hget, hkept⟩ := hl
  obtain ⟨r', hget', hpath⟩ := (effect_of_step hwf h).row hget
  refine ⟨r', hget', ?_⟩
  clear hget'
  induction hpath with
  | refl => exact hkept
  | tail _ hstep ih =>
    obtain ⟨δ, ht⟩ := hstep
    exact ht.refund_decided ih.1 ih.2

/-- What is assumed of the caller of `mark_robinhood_refund_pending` is what
`begin_refund` sees: once its check passed, whatever the ledger does while the call
waits, the row of its last step is no burst or one whose refund is decided. -/
theorem called_of_check {s : Settler} {c : RefundCall} (hwf : l.Wf)
    (hcheck : s.check l id = .ok (some c))
    (hget : (Run.final step l ops).requests.get? id = some r) :
    r.Called id (.markRobinhoodRefundPending id) := by
  obtain ⟨r₀, hget₀, hstate, hdecided⟩ := Settler.check_refundDecided hcheck
  have hstart : l.Wf ∧ l.RefundDecided id :=
    ⟨hwf, r₀, hget₀, by rw [Request.isEarly, hstate], fun hburst => hdecided (.inr (by simp [hburst]))⟩
  have hstep (l₁ : Ledger) (o : Op) (l₂ : Ledger) (hl : l₁.Wf ∧ l₁.RefundDecided id)
      (h : l₁.step o = some l₂) : l₂.Wf ∧ l₂.RefundDecided id :=
    ⟨hl.1.step h, hl.2.step hl.1 h⟩
  obtain ⟨-, r', hget', -, hrefund⟩ := Run.invariant hstep hstart ops
  obtain rfl := Option.some.inj (hget.symm.trans hget')
  exact fun _ => hrefund

/-! ### A burst -/

/-- One deposit of a wallet in ten minutes, and an hour of review for any other. -/
def samplePolicy : RapidBurstPolicy where
  enabled := true
  windowSecs := 600
  maxPerSourceWallet := 1
  maxPerDestinationWallet := 1
  maxPerPair := 1
  minimumReviewHoldSecs := 3600
  capSizedMin := 0
  maxCapSizedPerWindow := 0

/-- Two deposits of one wallet. The second is parked as a burst, and its refund is
decided. -/
def burstRun (emergency : Bool) (decidedAt : ℤ) : List Op :=
  [.configureReserve .goldcoinReserve 5000 0, .configureReserve .solanaReserve 5000 0,
    .setting (.rapidBurst (some samplePolicy)),
    .foldSolDeposit 3 sampleAmounts sampleRequester [2] none 100,
    .foldSolDeposit 4 sampleAmounts sampleRequester [2] none 110,
    .recordOperatorDecision 2 .refund "note" emergency decidedAt]

def burstRefund : Op :=
  .beginSolanaRefund 2
    { obligationIndex := 4, requester := sampleRequester, grossCanonical := 1000,
      amountSolana := 1000 } "note"

/-- State, disposition and `review_after` of a request after a run. -/
def holdAfter (ops : List Op) (id : ℕ) :
    Option (RequestState × ManualReviewDisposition × Option ℤ) :=
  ((after ops).requests.get? id).map fun r => (r.state, r.disposition, r.reviewAfter)

theorem holds_bind_sample :
    holdAfter (burstRun false 4000) 2 = some (.manualReview, .rapidBurstHold, some 3710) ∧
      stateAfter (burstRun false 4000 ++ [burstRefund]) 2 = some .refundPending ∧
      ∃ now, 3710 ≤ now ∧
        ∃ e ∈ Run.history step empty (burstRun false 4000 ++ [burstRefund]),
          e.2.DecidesOn 2 now := by
  have hhold : holdAfter (burstRun false 4000) 2 =
      some (.manualReview, .rapidBurstHold, some 3710) := by decide +kernel
  have hend : stateAfter (burstRun false 4000 ++ [burstRefund]) 2 = some .refundPending := by
    decide +kernel
  refine ⟨hhold, hend, ?_⟩
  obtain ⟨r, hget, hcolumns⟩ := Option.map_eq_some_iff.mp hhold
  simp only [Prod.mk.injEq] at hcolumns
  obtain ⟨hstate, hburst, hreview⟩ := hcolumns
  obtain ⟨r', hget', hstate'⟩ := Option.map_eq_some_iff.mp hend
  obtain ⟨l', hstep⟩ := Option.isSome_iff_exists.mp
    (show ((after (burstRun false 4000)).step burstRefund).isSome = true by decide +kernel)
  rw [after, Run.final_append, Run.final_cons, Run.advance_of_some hstep, Run.final_nil] at hget'
  have hops {e : Ledger × Op}
      (he : e ∈ Run.history step empty (burstRun false 4000 ++ [burstRefund])) :
      e.2 ∈ burstRun false 4000 ++ [burstRefund] :=
    Run.history_sublist.subset (List.mem_map_of_mem he)
  have hdecided := (holds_bind (fun e he id r _ => ?_) hstep hget hget').2 hburst hstate
    (by simp [hstate'])
  · obtain ⟨now, hdue, hdecided⟩ | ⟨-, e, he, now, hemergency⟩ := hdecided
    · exact ⟨now, hdue 3710 hreview, hdecided⟩
    · -- no decision of the run is an emergency
      have hop := hops he
      simp only [burstRun, burstRefund, List.cons_append, List.nil_append, List.mem_cons,
        List.not_mem_nil, or_false] at hop
      rcases hop with h | h | h | h | h | h | h <;> simp [h, Op.Decides] at hemergency
  · have hop := hops he
    simp only [burstRun, burstRefund, List.cons_append, List.nil_append, List.mem_cons,
      List.not_mem_nil, or_false] at hop
    rcases hop with h | h | h | h | h | h | h <;> rw [h] <;> trivial

/-- In an emergency a burst is refunded before its review is due. -/
theorem refunded_before_review :
    holdAfter (burstRun true 120) 2 = some (.manualReview, .rapidBurstHold, some 3710) ∧
      stateAfter (burstRun true 120 ++ [burstRefund]) 2 = some .refundPending ∧
      ∀ op ∈ burstRun true 120 ++ [burstRefund], ∀ now,
        op.DecidesOn 2 now ∨ op.Decides 2 .refund true now → now < 3710 := by
  refine ⟨by decide +kernel, by decide +kernel, fun op hop now hdecides => ?_⟩
  simp only [burstRun, burstRefund, List.cons_append, List.nil_append, List.mem_cons,
    List.not_mem_nil, or_false] at hop
  rcases hop with rfl | rfl | rfl | rfl | rfl | rfl | rfl <;>
    simp [Op.DecidesOn, Op.Decides] at hdecides ⊢
  omega

end Ledger

end Service
