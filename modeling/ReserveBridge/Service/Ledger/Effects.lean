-- SUMMARY: The effect of every operation of the ledger on rows and books, by one lemma for each, and the row invariant that the completions rest on.
import ReserveBridge.Service.Ledger.Transitions
import Mathlib.Logic.Relation

/-!
# The effect of an operation

Each transaction of the ledger, read as a transition of the row it writes. Every
later invariant is proved from the transitions alone.
-/

namespace Service
open Guard

namespace Ledger

variable {op : Op} {l l' : Ledger} {id : ℕ} {r r' : Request}

/-! ### The Goldcoin source leg -/

theorem expireReservations_effect {now : ℤ} (hop : op.isCompound = true) :
    Effect op l (l.expireReservations now) := by
  refine foldl_rows (P := fun l' => Effect op l l') (nodup_filter_keys _)
    (fun e he => get?_of_mem_filter he) (fun l₁ e he hget h => ⟨h.seq hop ?_, fun k hk => ?_⟩) .refl
  · have hstate : e.2.state = .awaitingDeposit := by
      simpa using (of_decide_eq_true (List.mem_filter.mp he).2).1
    exact .setReserved hget (.expired hstate)
  · show (l₁.setRequest e.1 _).requests.get? k = _
    rw [get?_setRequest hget, if_neg hk]

theorem cancelRequest_effect {note : String} (h : l.cancelRequest id note = .ok l') :
    Effect op l l' := by
  simp only [cancelRequest, bind_eq_ok, request_eq_ok, require_eq_ok, exists_unit, pure_eq_ok] at h
  obtain ⟨r, hget, hstate, rfl⟩ := h
  exact .setReserved hget (.cancelled hstate _)

theorem recordGlcDepositObserved_effect {dep : GlcDeposit} {lock : QuoteLock} {now : ℤ}
    {outcome : GlcObservationOutcome}
    (h : l.recordGlcDepositObserved id dep lock now = .ok (outcome, l')) :
    Effect (.recordGlcDepositObserved id dep lock now) l l' := by
  obtain ⟨rfl, -⟩ | ⟨r, hget, hsource, -, ⟨hexpired, rfl⟩ | ⟨r₀, n, l₀, l₁, r₁, r', k, h₀, hl₀, h₁,
    hobs, hnet, rfl, hl₁⟩⟩ := recordGlcDepositObserved_cases h
  · exact .refl
  · exact .set hget (.lateDeposit hexpired dep rfl)
  · have hrequests : l₁.requests = l.requests := by
      obtain ⟨rfl, -⟩ | ⟨rfl, -⟩ := hl₁ <;> obtain ⟨rfl, -⟩ | ⟨rfl, -⟩ := hl₀ <;> rfl
    have hvault : l₁.vault = l.vault := by
      obtain ⟨rfl, -⟩ | ⟨rfl, -⟩ := hl₁ <;> obtain ⟨rfl, -⟩ | ⟨rfl, -⟩ := hl₀ <;> rfl
    refine .moved hget (.observed rfl hsource h₀ h₁ hobs hnet) (by rw [← hrequests]; rfl)
      (fun d => ?_) fun _ => hvault
    -- what was reserved for the readmission, and then for the lock
    have hb₀ : l₀.books d = (l.books d).map
        (· + if d = r.direction.destinationReserve then (n, 0) else 0) := by
      obtain ⟨rfl, rfl⟩ | ⟨rfl, -⟩ := hl₀
      · simp [Prod.mk_zero_zero]
      · exact books_addReserved
    have hb₁ : l₁.books d = (l₀.books d).map
        (· + if d = r.direction.destinationReserve then (k, 0) else 0) := by
      obtain ⟨rfl, rfl⟩ | ⟨rfl, -⟩ := hl₁
      · simp [Prod.mk_zero_zero]
      · exact books_addReserved
    rw [books_setRequest, hb₁, hb₀, Option.map_map]
    refine Option.map_congr fun b _ => ?_
    split_ifs <;> simp [add_assoc]

theorem updateGlcConfirmations_effect {c : ℤ} (h : l.updateGlcConfirmations id c = .ok l') :
    Effect op l l' := by
  simp only [updateGlcConfirmations, bind_eq_ok, request_eq_ok] at h
  obtain ⟨r, hget, h⟩ := h
  split_ifs at h with hc
  · obtain rfl := pure_eq_ok.mp h
    exact .set hget (.confirmations c)
  · obtain rfl := pure_eq_ok.mp h
    exact .refl

theorem markGlcSourceFinalized_effect {now : ℤ} (h : l.markGlcSourceFinalized id now = .ok l') :
    Effect op l l' := by
  simp only [markGlcSourceFinalized, bind_eq_ok, request_eq_ok] at h
  obtain ⟨r, hget, h⟩ := h
  split_ifs at h with hc
  · obtain rfl := pure_eq_ok.mp h
    exact .refl
  · simp only [bind_eq_ok, require_eq_ok, exists_unit, pure_eq_ok] at h
    obtain ⟨hstate, rfl⟩ := h
    exact .moved hget (.finalized hstate now) rfl (fun d => books_addPending) fun _ => rfl

theorem markGlcDepositSpentBeforeFinalized_effect
    (h : l.markGlcDepositSpentBeforeFinalized id = .ok l') : Effect op l l' := by
  simp only [markGlcDepositSpentBeforeFinalized, bind_eq_ok, request_eq_ok] at h
  obtain ⟨r, hget, h⟩ := h
  split_ifs at h with hc
  · obtain rfl := pure_eq_ok.mp h
    exact .refl
  · simp only [bind_eq_ok, require_eq_ok, exists_unit, pure_eq_ok] at h
    obtain ⟨hstate, rfl⟩ := h
    exact .set hget (.spentBeforeFinalized hstate)

theorem markGlcReorged_effect (hop : op.writesDeposit = true) (h : l.markGlcReorged id = .ok l') :
    Effect op l l' := by
  simp only [markGlcReorged, bind_eq_ok, request_eq_ok, require_eq_ok, exists_unit, pure_eq_ok] at h
  obtain ⟨r, hget, hstate, rfl⟩ := h
  exact .set hget (.reorged hstate hop)

theorem goldcoinRollbackReorg_effect {height : ℤ} (hop : op.isCompound = true)
    (hwrites : op.writesDeposit = true) : Effect op l (l.goldcoinRollbackReorg height) := by
  refine foldl_rows (P := fun l' => Effect op l l') (nodup_filter_keys _)
    (fun e he => get?_of_mem_filter he) (fun l₁ e he hget h => ⟨h.seq hop ?_, fun k hk => ?_⟩) .refl
  · have hstate : e.2.state = .depositObserved ∨ e.2.state = .confirming :=
      (of_decide_eq_true (List.mem_filter.mp he).2).2.1
    exact .set hget (.reorged hstate hwrites)
  · rw [get?_setRequest hget, if_neg hk]

/-! ### Manual review -/

theorem parkForDestinationBounds_effect (h : l.parkForDestinationBounds id = .ok l') :
    Effect op l l' := by
  simp only [parkForDestinationBounds, bind_eq_ok, request_eq_ok] at h
  obtain ⟨r, hget, h⟩ := h
  by_cases hstate : r.state = .sourceFinalized
  · rw [if_neg (not_not.mpr hstate), pure_eq_ok] at h
    have ht : Transition op id r _ _ := .parkedForBounds hstate
    split_ifs at h ht with hsource
    · subst h
      exact .set hget ht
    · subst h
      exact .setObligation hget ht
  · rw [if_pos hstate, pure_eq_ok] at h
    exact h ▸ .refl

theorem parkForForeignContract_effect (h : l.parkForForeignContract id = .ok l') :
    Effect op l l' := by
  simp only [parkForForeignContract, bind_eq_ok, request_eq_ok] at h
  obtain ⟨r, hget, h⟩ := h
  split_ifs at h with hc
  · obtain rfl := pure_eq_ok.mp h
    exact .refl
  · obtain rfl := pure_eq_ok.mp h
    rw [not_or, not_not, not_not] at hc
    exact .set hget (.parkedForContract hc.2 hc.1)

theorem refuseIfAutoResumeHeld_eq_ok (hget : l.requests.get? id = some r) :
    l.refuseIfAutoResumeHeld id = .ok () ↔ r.Unheld := by
  simp only [refuseIfAutoResumeHeld, hget, bind_eq_ok, require_eq_ok, exists_unit, Request.Unheld]
  constructor
  · rintro ⟨-, hnote, hdecided⟩
    exact ⟨hnote, fun hne hnone => hdecided ⟨hne, hnone⟩⟩
  · rintro ⟨hnote, hdecided⟩
    refine ⟨?_, hnote, fun h => hdecided h.1 h.2⟩
    intro h
    exact hdecided (by simp [h.1]) h.2

theorem refuseUnlessDecided_eq_ok (hget : l.requests.get? id = some r) :
    l.refuseUnlessDecided id = .ok () ↔ r.RefundDecided := by
  simp only [refuseUnlessDecided, hget, require_eq_ok, Request.RefundDecided]

/-- A row that may be held is parked, unpaid and without a payout. -/
theorem refuseUnlessHoldable_eq_ok : l.refuseUnlessHoldable id = .ok r ↔
    l.requests.get? id = some r ∧ r.state = .manualReview ∧ r.destinationTxid = none ∧
      (r.goldcoinPayout = none ∧ r.robinhoodTx .payout = none ∧ r.robinhoodTx .settlement = none) := by
  simp only [refuseUnlessHoldable, bind_eq_ok, request_eq_ok, require_eq_ok, exists_unit, pure_eq_ok]
  constructor
  · rintro ⟨_, hget, hstate, htxid, hpayout, rfl⟩
    exact ⟨hget, hstate, htxid, hpayout⟩
  · rintro ⟨hget, hstate, htxid, hpayout⟩
    exact ⟨r, hget, hstate, htxid, hpayout, rfl⟩

theorem setManualReviewHold_effect {reviewAfter : Option ℤ} {note : String}
    (h : l.setManualReviewHold id reviewAfter note = .ok l') :
    Effect (.setManualReviewHold id reviewAfter note) l l' := by
  simp only [setManualReviewHold, bind_eq_ok, require_eq_ok, exists_unit, pure_eq_ok,
    refuseUnlessHoldable_eq_ok] at h
  obtain ⟨-, r, ⟨hget, hstate, -⟩, hburst, rfl⟩ := h
  exact .set hget (.reviewed (fun _ => hstate) _ _ _ _ (.held rfl hburst))

theorem clearManualReviewHold_effect (h : l.clearManualReviewHold id = .ok l') :
    Effect (.clearManualReviewHold id) l l' := by
  simp only [clearManualReviewHold, bind_eq_ok, request_eq_ok, require_eq_ok, exists_unit] at h
  obtain ⟨r, hget, hburst, h⟩ := h
  split_ifs at h with hc
  · obtain rfl := pure_eq_ok.mp h
    exact .refl
  · obtain rfl := pure_eq_ok.mp h
    have hheld : r.holdNote = true ∨ r.disposition ≠ .normal := by
      rw [not_and_or] at hc
      exact hc.imp_left fun hnote => by simpa using hnote
    exact .set hget (.reviewed (fun hne => absurd rfl hne) _ _ _ _ (.released rfl hburst hheld))

theorem recordOperatorDecision_effect {decision : OperatorDecision} {note : String}
    {emergency : Bool} {now : ℤ} (hdecides : op.Decides id decision emergency now)
    (h : l.recordOperatorDecision id decision note emergency now = .ok l') : Effect op l l' := by
  simp only [recordOperatorDecision, bind_eq_ok, require_eq_ok, exists_unit, pure_eq_ok,
    refuseUnlessHoldable_eq_ok] at h
  obtain ⟨-, hrelease, hrefund, r, ⟨hget, hstate, -⟩, hheld, -, hdue, rfl⟩ := h
  exact .set hget (.reviewed (fun _ => hstate) _ _ _ _
    (.decided hdecides hrelease hheld hrefund hdue))

/-- A resumption that took place: the row, its admission run again, and the
room its reserve had. -/
structure Resumed (l : Ledger) (id : ℕ) (now : ℤ) (r : Request) (v : Reserve) : Prop where
  found : l.requests.get? id = some r
  state : r.state = .manualReview
  unheld : r.Unheld
  note : ∃ reason ∈ r.manualReviewNote, reason.isRecoverable = true
  destinationTxid : r.destinationTxid = none
  noRefund : if r.direction.sourceIsRobinhood then r.robinhoodTx .refund = none
    else r.solanaRefund = none
  windows : ∃ wallet, r.sourceWallet = some wallet ∧ wallet ≠ [] ∧
    l.resumeWalletWindows id r wallet now = .ok ()
  row : l.reserves r.direction.destinationReserve = some v
  headroom : r.netDestination ≤ v.headroom
  buffer : 0 < v.admissionBuffer → v.admissionBuffer ≤ asI64 (v.headroom - r.netDestination)

/-- A recorded source wallet is not empty. -/
theorem knownSourceWallet_eq_ok {wallet : Bytes} (h : knownSourceWallet id r = .ok wallet) :
    r.sourceWallet = some wallet ∧ wallet ≠ [] := by
  have h := Option.filter_eq_some_iff.mp (orFail_eq_ok.mp h)
  exact ⟨h.1, by simpa using h.2⟩

theorem resumeManualReviewInbound_cases {expected : Direction} {now : ℤ}
    (hexpected : expected.destinationIsGoldcoin)
    (h : l.resumeManualReviewInbound expected id now = .ok l') :
    l' = l ∨ ∃ r v, Resumed l id now r v ∧ r.direction = expected ∧ r.goldcoinPayout = none ∧
      l' = (l.setRequest id
        { r.transition .sourceFinalized with manualReviewNote := none }).addObligation
          r.direction.destinationReserve r.netDestination := by
  simp only [resumeManualReviewInbound, bind_eq_ok, request_eq_ok, require_eq_ok, exists_unit] at h
  obtain ⟨hheld, -, r, hget, hdirection, hrefund, wallet, hwallet, h⟩ := h
  obtain ⟨hsome, hne⟩ := knownSourceWallet_eq_ok hwallet
  by_cases hstate : r.state = .manualReview
  swap
  · rw [if_pos hstate] at h
    simp only [bind_eq_ok, require_eq_ok, exists_unit, pure_eq_ok] at h
    exact .inl h.2.symm
  rw [if_neg (not_not.mpr hstate)] at h
  simp only [bind_eq_ok, require_eq_ok, exists_unit, pure_eq_ok, reserve_eq_ok] at h
  obtain ⟨hnote, -, -, htxid, hpayout, hwindows, v, hv, -, hroom, hbuffer, rfl⟩ := h
  have hreserve : r.direction.destinationReserve = .goldcoinReserve := by
    rw [hdirection, Direction.destinationReserve, hexpected]
  have hsource : r.direction.sourceIsRobinhood ↔ expected = .rhnToGlc := by
    subst hdirection
    revert hexpected
    generalize r.direction = d
    cases d <;> simp [Direction.destinationIsGoldcoin, Direction.destinationChain,
      Direction.sourceIsRobinhood, Direction.sourceChain]
  refine .inr ⟨r, v, ⟨hget, hstate, (refuseIfAutoResumeHeld_eq_ok hget).mp hheld, ?_, htxid, ?_,
    ⟨wallet, hsome, hne, hwindows⟩, ?_, hroom, hbuffer⟩, hdirection, hpayout, ?_⟩
  · simpa [Option.any_eq_true] using hnote
  · simpa only [hsource] using hrefund
  · rw [hreserve, hv]
  · rw [hreserve]

theorem resumeManualReviewCrossRoute_cases {expected : Direction} {now : ℤ}
    (h : l.resumeManualReviewCrossRoute expected id now = .ok l') :
    l' = l ∨ ∃ r v, Resumed l id now r v ∧ r.direction = expected ∧ r.robinhoodTx .payout = none ∧
      l' = ((l.evaluateLiquidityGate r.direction.destinationReserve).setRequest id
        (r.transition .sourceFinalized)).addObligation r.direction.destinationReserve
          r.netDestination := by
  simp only [resumeManualReviewCrossRoute, bind_eq_ok, request_eq_ok, require_eq_ok,
    exists_unit] at h
  obtain ⟨hheld, -, r, hget, hdirection, wallet, hwallet, hrefund, h⟩ := h
  obtain ⟨hsome, hne⟩ := knownSourceWallet_eq_ok hwallet
  by_cases hstate : r.state = .manualReview
  swap
  · rw [if_pos hstate] at h
    simp only [bind_eq_ok, require_eq_ok, exists_unit, pure_eq_ok] at h
    exact .inl h.2.symm
  rw [if_neg (not_not.mpr hstate)] at h
  simp only [bind_eq_ok, require_eq_ok, exists_unit, pure_eq_ok, reserve_eq_ok] at h
  obtain ⟨hnote, -, -, ⟨htxid, hpayout⟩, -, hwindows, v, hv, hroom, hbuffer, rfl⟩ := h
  exact .inr ⟨r, v, ⟨hget, hstate, (refuseIfAutoResumeHeld_eq_ok hget).mp hheld,
    by simpa [Option.any_eq_true] using hnote, htxid, hrefund,
    ⟨wallet, hsome, hne, hwindows⟩, hv, hroom, hbuffer⟩, hdirection, hpayout, rfl⟩

theorem resumeManualReview_effect {expected : Direction} {now : ℤ} (hop : op.Readmits id)
    (h : l.resumeManualReview expected id now = .ok l') : Effect op l l' := by
  -- only the routes that do not start on Goldcoin have a resumption
  unfold resumeManualReview at h
  have inbound : ∀ expected : Direction, expected.destinationIsGoldcoin →
      ¬ expected.sourceIsGoldcoin → l.resumeManualReviewInbound expected id now = .ok l' →
      Effect op l l' := by
    intro _ hexpected hsource h
    obtain rfl | ⟨r, v, hr, rfl, -, rfl⟩ := resumeManualReviewInbound_cases hexpected h
    · exact .refl
    · exact .setObligation hr.found
        (.resumed hr.state hsource hr.note hr.noRefund hr.destinationTxid none hop hr.unheld)
  have cross : ∀ expected : Direction, ¬ expected.sourceIsGoldcoin →
      l.resumeManualReviewCrossRoute expected id now = .ok l' → Effect op l l' := by
    intro _ hsource h
    obtain rfl | ⟨r, v, hr, rfl, -, rfl⟩ := resumeManualReviewCrossRoute_cases h
    · exact .refl
    · exact .moved hr.found
        (.resumed hr.state hsource hr.note hr.noRefund hr.destinationTxid r.manualReviewNote
          hop hr.unheld) rfl
        (fun d => by rw [books_addObligation, books_setRequest, books_evaluateLiquidityGate])
        fun _ => rfl
  cases expected with
  | solToGlc => exact inbound _ (by decide) (by decide) h
  | rhnToGlc => exact inbound _ (by decide) (by decide) h
  | solToRhn => exact cross _ (by decide) h
  | rhnToSol => exact cross _ (by decide) h
  | glcToSol => cases h
  | glcToRhn => cases h

theorem processHeldManualReview_effect {note : String} {now : ℤ} (hop : op.isCompound = true)
    (hreadmits : op.Readmits id) (hdecides : op.Decides id .process false now)
    (h : l.processHeldManualReview id note now = .ok l') : Effect op l l' := by
  simp only [processHeldManualReview, bind_eq_ok, request_eq_ok] at h
  obtain ⟨decided, hdecided, r, -, hresumed⟩ := h
  exact (recordOperatorDecision_effect hdecides hdecided).seq hop
    (resumeManualReview_effect hreadmits hresumed)

theorem resumeGlcToSolDestinationBound_effect {live : LiveSolanaBounds} (hop : op.Readmits id)
    (h : l.resumeGlcToSolDestinationBound id live = .ok l') : Effect op l l' := by
  simp only [resumeGlcToSolDestinationBound, bind_eq_ok, request_eq_ok, require_eq_ok,
    exists_unit] at h
  obtain ⟨r, hget, hheld, hdirection, h⟩ := h
  by_cases hstate : r.state = .manualReview
  swap
  · rw [if_pos hstate] at h
    simp only [bind_eq_ok, require_eq_ok, exists_unit, pure_eq_ok] at h
    exact h.2 ▸ .refl
  rw [if_neg (not_not.mpr hstate)] at h
  simp only [bind_eq_ok, require_eq_ok, exists_unit, pure_eq_ok] at h
  obtain ⟨hnote, -, -, hrefund, -, -, -, -, _, -, -, -, -, _, -, -, -, rfl⟩ := h
  exact .set hget (.resumedBounds hstate hdirection hnote hrefund hop
    ((refuseIfAutoResumeHeld_eq_ok hget).mp hheld))

theorem closeManualReview_effect {disposition : ClosureDisposition} {reference note : String}
    {now : ℤ} (h : l.closeManualReview id disposition reference note now = .ok l') :
    Effect (.closeManualReview id disposition reference note now) l l' := by
  simp only [closeManualReview, bind_eq_ok, request_eq_ok, require_eq_ok, exists_unit] at h
  obtain ⟨-, -, r, hget, h⟩ := h
  split at h
  · simp only [bind_eq_ok, require_eq_ok, exists_unit, pure_eq_ok] at h
    exact h.2 ▸ .refl
  · simp only [bind_eq_ok, require_eq_ok, exists_unit, pure_eq_ok] at h
    obtain ⟨hstate, -, -, hrefund, hdue, -, rfl⟩ := h
    exact .set hget (.closed rfl hstate hrefund hdue)

/-! ### Refunds -/

theorem beginSolanaRefund_effect {verified : VerifiedRefundInputs} {note : String}
    (h : l.beginSolanaRefund id verified note = .ok l') :
    Effect (.beginSolanaRefund id verified note) l l' := by
  simp only [beginSolanaRefund, bind_eq_ok, request_eq_ok, require_eq_ok, exists_unit,
    reserve_eq_ok, pure_eq_ok] at h
  obtain ⟨-, r, hget, heligible, hdecided, -, -, -, v, -, -, rfl⟩ := h
  exact .set hget (.solanaRefundBegun heligible.state heligible.direction heligible.noRefund _ rfl
    ⟨verified, note, rfl⟩ ((refuseUnlessDecided_eq_ok hget).mp hdecided))

theorem recordSolanaRefundBroadcast_effect (h : l.recordSolanaRefundBroadcast id = .ok l') :
    Effect op l l' := by
  simp only [recordSolanaRefundBroadcast, bind_eq_ok, request_eq_ok, require_eq_ok, exists_unit,
    orFail_eq_ok, pure_eq_ok] at h
  obtain ⟨r, hget, f, hf, -, hstate, rfl⟩ := h
  exact .set hget (.solanaRefundBroadcast hf hstate)

theorem markSolanaRefundConfirmed_effect (h : l.markSolanaRefundConfirmed id = .ok l') :
    Effect op l l' := by
  simp only [markSolanaRefundConfirmed, bind_eq_ok, request_eq_ok, orFail_eq_ok] at h
  obtain ⟨r, hget, f, hf, h⟩ := h
  split_ifs at h with hc
  · obtain rfl := pure_eq_ok.mp h
    exact .refl
  · simp only [bind_eq_ok, require_eq_ok, exists_unit, pure_eq_ok] at h
    obtain ⟨-, hstate, rfl⟩ := h
    exact .setReserve (fun _ => ⟨rfl, rfl⟩) hget (.solanaRefundConfirmed hf hstate)

theorem returnRefundToManualReview_effect {nothingLanded : Bool} {note : String}
    (h : l.returnRefundToManualReview id nothingLanded note = .ok l') :
    Effect (.returnRefundToManualReview id nothingLanded note) l l' := by
  simp only [returnRefundToManualReview, bind_eq_ok, request_eq_ok, require_eq_ok, exists_unit,
    orFail_eq_ok, pure_eq_ok] at h
  obtain ⟨-, r, hget, hstate, hsource, f, -, -, -, -, -, -, -, -, -, -, -, rfl⟩ := h
  exact .set hget (.refundReturned rfl hstate hsource)

theorem beginGoldcoinRefund_effect {amount : ℕ} {inputs : List Outpoint} {note : String}
    (h : l.beginGoldcoinRefund id amount inputs note = .ok l') :
    Effect (.beginGoldcoinRefund id amount inputs note) l l' := by
  simp only [beginGoldcoinRefund, bind_eq_ok, request_eq_ok, require_eq_ok, exists_unit,
    pure_eq_ok] at h
  obtain ⟨-, -, hdecided, r, hget, hsource, hstate, hnote, -, -, -, hrefund, -, -, -, vault, -,
    rfl⟩ := h
  exact .setVault rfl hget (.goldcoinRefundBegun hstate hsource
    (by simpa [Option.any_eq_true] using hnote) hrefund ⟨amount, note, rfl⟩
    ((refuseUnlessDecided_eq_ok hget).mp hdecided))

theorem recordGoldcoinRefundSigned_effect (h : l.recordGoldcoinRefundSigned id = .ok l') :
    Effect op l l' := by
  simp only [recordGoldcoinRefundSigned, bind_eq_ok, request_eq_ok, orFail_eq_ok] at h
  obtain ⟨r, hget, f, hf, h⟩ := h
  split_ifs at h with hc
  · obtain rfl := pure_eq_ok.mp h
    exact .refl
  · simp only [bind_eq_ok, require_eq_ok, exists_unit, pure_eq_ok] at h
    obtain ⟨hbuilt, rfl⟩ := h
    exact .set hget (.goldcoinRefundSigned hf hbuilt)

theorem recordGoldcoinRefundBroadcast_effect {txid : Txid}
    (h : l.recordGoldcoinRefundBroadcast id txid = .ok l') :
    Effect (.recordGoldcoinRefundBroadcast id txid) l l' := by
  simp only [recordGoldcoinRefundBroadcast, bind_eq_ok, request_eq_ok, orFail_eq_ok] at h
  obtain ⟨r, hget, f, hf, h⟩ := h
  split at h
  · simp only [bind_eq_ok, require_eq_ok, exists_unit, pure_eq_ok] at h
    exact h.2 ▸ .refl
  · simp only [bind_eq_ok, require_eq_ok, exists_unit, pure_eq_ok] at h
    obtain ⟨hsigned, rfl⟩ := h
    exact .setVault rfl hget (.goldcoinRefundBroadcast rfl hf hsigned)

theorem commitGoldcoinRefundTerminal_effect {f : GoldcoinRefund}
    (hop : op = .recordGoldcoinRefundConfirmed id ∨
      ∃ c q, op = .reconcileGoldcoinRefundConfirmations id c q)
    (hget : l.requests.get? id = some r) (hf : r.goldcoinRefund = some f)
    (hbroadcast : f.state = .broadcast) :
    Effect op l (l.commitGoldcoinRefundTerminal id r f) := by
  have ht := Transition.goldcoinRefundConfirmed hop hf hbroadcast
  unfold commitGoldcoinRefundTerminal
  dsimp only
  split_ifs at ht ⊢ with hreleased
  · exact .set hget ht
  · exact .setReserved hget ht

theorem recordGoldcoinRefundConfirmed_effect (h : l.recordGoldcoinRefundConfirmed id = .ok l') :
    Effect (.recordGoldcoinRefundConfirmed id) l l' := by
  simp only [recordGoldcoinRefundConfirmed, bind_eq_ok, request_eq_ok, orFail_eq_ok] at h
  obtain ⟨r, hget, f, hf, h⟩ := h
  split_ifs at h with hc
  · obtain rfl := pure_eq_ok.mp h
    exact .refl
  · simp only [bind_eq_ok, require_eq_ok, exists_unit, pure_eq_ok] at h
    obtain ⟨hbroadcast, rfl⟩ := h
    exact commitGoldcoinRefundTerminal_effect (.inl rfl) hget hf hbroadcast

theorem reconcileGoldcoinRefundConfirmations_effect {c q : ℤ}
    (h : l.reconcileGoldcoinRefundConfirmations id c q = .ok l') :
    Effect (.reconcileGoldcoinRefundConfirmations id c q) l l' := by
  simp only [reconcileGoldcoinRefundConfirmations, bind_eq_ok, request_eq_ok, orFail_eq_ok] at h
  obtain ⟨r, hget, f, hf, h⟩ := h
  by_cases hc : f.state = .refunded
  · rw [if_pos hc, pure_eq_ok] at h
    exact h ▸ .refl
  rw [if_neg hc] at h
  simp only [bind_eq_ok, require_eq_ok, exists_unit, pure_eq_ok] at h
  obtain ⟨hbroadcast, h⟩ := h
  split_ifs at h with hdepth
  · exact h ▸ .refl
  · exact h ▸ commitGoldcoinRefundTerminal_effect (.inr ⟨c, q, rfl⟩) hget hf hbroadcast

theorem markRobinhoodRefundPending_effect (h : l.markRobinhoodRefundPending id = .ok l') :
    Effect (.markRobinhoodRefundPending id) l l' := by
  simp only [markRobinhoodRefundPending, bind_eq_ok, request_eq_ok, require_eq_ok,
    exists_unit] at h
  obtain ⟨r, hget, hsource, h⟩ := h
  split_ifs at h with hc
  · obtain rfl := pure_eq_ok.mp h
    exact .refl
  · simp only [bind_eq_ok, require_eq_ok, exists_unit, pure_eq_ok] at h
    obtain ⟨hstate, rfl⟩ := h
    exact .set hget (.robinhoodRefundPending hstate hsource rfl)

theorem markRobinhoodRefundConfirmed_effect (h : l.markRobinhoodRefundConfirmed id = .ok l') :
    Effect (.markRobinhoodRefundConfirmed id) l l' := by
  simp only [markRobinhoodRefundConfirmed, bind_eq_ok, request_eq_ok, require_eq_ok,
    exists_unit] at h
  obtain ⟨r, hget, hsource, h⟩ := h
  split_ifs at h with hc
  · obtain rfl := pure_eq_ok.mp h
    exact .refl
  · simp only [bind_eq_ok, require_eq_ok, exists_unit, pure_eq_ok] at h
    obtain ⟨hstate, rfl⟩ := h
    exact .set hget (.robinhoodRefundConfirmed rfl hstate hsource)

theorem markRobinhoodRequestManualReview_effect {reason : ParkReason}
    (h : l.markRobinhoodRequestManualReview id reason = .ok l') :
    Effect (.markRobinhoodRequestManualReview id reason) l l' := by
  simp only [markRobinhoodRequestManualReview, bind_eq_ok, request_eq_ok] at h
  obtain ⟨r, hget, h⟩ := h
  by_cases hdone : r.state = .settled ∨ r.state = .refunded
  · rw [if_pos hdone, pure_eq_ok] at h
    exact h ▸ .refl
  rw [if_neg hdone] at h
  by_cases hparked : r.state = .manualReview
  · rw [if_pos hparked, pure_eq_ok] at h
    exact h ▸ .refl
  rw [if_neg hparked, pure_eq_ok] at h
  rw [not_or] at hdone
  have ht := Transition.robinhoodParked (Eq.refl (Op.markRobinhoodRequestManualReview id reason))
    ⟨hdone.1, hdone.2, hparked⟩
  split_ifs at h ht with hactive
  · exact h ▸ .setObligation hget ht
  · exact h ▸ .set hget ht

/-! ### The destination leg -/

theorem recordReleaseSubmitted_effect {signature : ℕ}
    (h : l.recordReleaseSubmitted id signature = .ok l') : Effect op l l' := by
  simp only [recordReleaseSubmitted, bind_eq_ok, request_eq_ok, require_eq_ok, exists_unit] at h
  obtain ⟨r, hget, hdestination, h⟩ := h
  by_cases hstate : r.state = .sourceFinalized
  · rw [if_neg (not_not.mpr hstate), pure_eq_ok] at h
    exact h ▸ .set hget (.releaseSubmitted hstate hdestination signature)
  · rw [if_pos hstate, pure_eq_ok] at h
    exact h ▸ .refl

theorem recordReleaseAttestation_effect (h : l.recordReleaseAttestation id = .ok l') :
    Effect (.recordReleaseAttestation id) l l' := by
  simp only [recordReleaseAttestation, bind_eq_ok, request_eq_ok, pure_eq_ok] at h
  obtain ⟨r, hget, rfl⟩ := h
  exact .set hget (.releaseAttested rfl)

/-- A release that was confirmed now, or was before. -/
theorem releaseConfirmed_cases (h : l.releaseConfirmed id = .ok l') :
    ∃ r, l.requests.get? id = some r ∧ r.direction.destinationIsSolana ∧
      ((l' = l ∧ (r.state = .settled ∨
          (r.state = .destinationConfirmed ∧ ¬ r.direction.settlesOnRelease))) ∨
        (r.state = .destinationSubmitted ∧
          l' = ((l.setRequest id (if r.direction.settlesOnRelease then
              (r.transition .destinationConfirmed).transition .settled
            else r.transition .destinationConfirmed)).settle .solanaReserve r.netDestination).accrueFee
              r.direction.sourceReserve r.feeAmount)) := by
  simp only [releaseConfirmed, bind_eq_ok, request_eq_ok, require_eq_ok, exists_unit] at h
  obtain ⟨r, hget, hdestination, h⟩ := h
  refine ⟨r, hget, hdestination, ?_⟩
  by_cases hdone : r.state = .settled ∨
      (r.state = .destinationConfirmed ∧ ¬ r.direction.settlesOnRelease)
  · rw [if_pos hdone, pure_eq_ok] at h
    exact .inl ⟨h.symm, hdone⟩
  · rw [if_neg hdone] at h
    simp only [bind_eq_ok, require_eq_ok, exists_unit, pure_eq_ok] at h
    exact .inr ⟨h.1, h.2.symm⟩

theorem releaseConfirmed_effect (h : l.releaseConfirmed id = .ok l') : Effect op l l' := by
  obtain ⟨r, hget, hdestination, ⟨rfl, -⟩ | ⟨hstate, rfl⟩⟩ := releaseConfirmed_cases h
  · exact .refl
  · have hreserve : r.direction.destinationReserve = .solanaReserve := by
      rw [Direction.destinationReserve, hdestination]
    exact .setSettled hget hreserve (.releaseConfirmed hstate hdestination)

theorem reconcileReleaseFromChain_effect (h : l.reconcileReleaseFromChain id = .ok l') :
    Effect op l l' := by
  simp only [reconcileReleaseFromChain, bind_eq_ok, request_eq_ok] at h
  obtain ⟨r, -, h⟩ := h
  by_cases hstate : r.state = .destinationSubmitted
  · rw [if_neg (not_not.mpr hstate)] at h
    exact releaseConfirmed_effect h
  · rw [if_pos hstate] at h
    simp only [bind_eq_ok, require_eq_ok, exists_unit, pure_eq_ok] at h
    exact h.2 ▸ .refl

/-- Only a row that is paid on Goldcoin takes outputs. -/
theorem reserveVaultUtxos_eq_ok {selected : List Outpoint} {depth : ℤ} :
    l.reserveVaultUtxos id selected depth = .ok l' ↔
      ∃ r, l.requests.get? id = some r ∧ r.direction.destinationIsGoldcoin ∧
        ∃ vault, l.vault.reserveSelected id depth selected = .ok vault ∧
          { l with vault := vault } = l' := by
  simp only [reserveVaultUtxos, bind_eq_ok, request_eq_ok, require_eq_ok, exists_unit, pure_eq_ok]

theorem reserveVaultUtxos_effect {selected : List Outpoint} {depth : ℤ}
    (h : l.reserveVaultUtxos id selected depth = .ok l') :
    Effect (.reserveVaultUtxos id selected depth) l l' := by
  obtain ⟨_, -, -, vault, -, rfl⟩ := reserveVaultUtxos_eq_ok.mp h
  exact .idle rfl (fun _ => books_withVault) (by simp [Op.touchesVault])

theorem buildPayout_effect {plan : PayoutPlan} {depth : ℤ}
    (h : l.buildPayout id plan depth = .ok l') : Effect (.buildPayout id plan depth) l l' := by
  simp only [buildPayout, bind_eq_ok] at h
  obtain ⟨l₁, hreserved, h⟩ := h
  obtain ⟨r, hget, hdestination, vault, -, rfl⟩ := reserveVaultUtxos_eq_ok.mp hreserved
  simp only [recordGoldcoinPayoutBuilt, bind_eq_ok, request_eq_ok, require_eq_ok, exists_unit,
    pure_eq_ok] at h
  obtain ⟨r', hget', hpayout, hrefund, -, rfl⟩ := h
  obtain rfl : r' = r := Option.some.inj (hget'.symm.trans hget)
  exact .setVault rfl hget
    (.payoutBuilt hdestination hpayout hrefund _ rfl rfl ⟨plan, depth, rfl, rfl⟩)

theorem recordGoldcoinPayoutSigned_effect (h : l.recordGoldcoinPayoutSigned id = .ok l') :
    Effect op l l' := by
  simp only [recordGoldcoinPayoutSigned, bind_eq_ok, request_eq_ok, require_eq_ok, exists_unit,
    orFail_eq_ok, pure_eq_ok] at h
  obtain ⟨r, hget, p, hp, hbuilt, hstate, rfl⟩ := h
  exact .set hget (.payoutSigned hp hbuilt hstate)

theorem recordGoldcoinPayoutBroadcast_effect {txid : Txid}
    (h : l.recordGoldcoinPayoutBroadcast id txid = .ok l') :
    Effect (.recordGoldcoinPayoutBroadcast id txid) l l' := by
  simp only [recordGoldcoinPayoutBroadcast, bind_eq_ok, request_eq_ok, orFail_eq_ok] at h
  obtain ⟨r, hget, p, hp, h⟩ := h
  by_cases hsent : p.state = .broadcast ∨ p.state = .confirmed ∨ p.state = .completed
  · rw [if_pos hsent, pure_eq_ok] at h
    exact h ▸ .refl
  · rw [if_neg hsent] at h
    simp only [bind_eq_ok, require_eq_ok, exists_unit, pure_eq_ok] at h
    obtain ⟨hsigned, hstate, rfl⟩ := h
    exact .setVault rfl hget (.payoutBroadcast hp hsigned hstate txid)

theorem updateGoldcoinPayoutConfirmations_effect {c depth : ℤ}
    (h : l.updateGoldcoinPayoutConfirmations id c depth = .ok l') :
    Effect (.updateGoldcoinPayoutConfirmations id c depth) l l' := by
  simp only [updateGoldcoinPayoutConfirmations, bind_eq_ok, request_eq_ok] at h
  obtain ⟨r, hget, h⟩ := h
  cases hp : r.goldcoinPayout with
  | none =>
    rw [hp] at h
    exact pure_eq_ok.mp h ▸ .refl
  | some p =>
    rw [hp] at h
    -- the row may see more confirmations, and its state stays
    obtain ⟨c', hc'⟩ : ∃ c', (if (p.state = .broadcast ∨ p.state = .confirmed) ∧
        p.confirmations < c then { p with confirmations := c } else p) =
          { p with confirmations := c' } := by
      by_cases hseen : (p.state = .broadcast ∨ p.state = .confirmed) ∧ p.confirmations < c
      · exact ⟨c, if_pos hseen⟩
      · exact ⟨p.confirmations, if_neg hseen⟩
    simp only [hc'] at h
    by_cases hdeep : depth ≤ c ∧ p.state = .broadcast
    · rw [if_pos hdeep, pure_eq_ok] at h
      exact h ▸ .set hget (.payoutConfirmed rfl hdeep.1 hp hdeep.2 c')
    · rw [if_neg hdeep, pure_eq_ok] at h
      exact h ▸ .set hget (.payoutConfirmations hp c')

theorem submitGoldcoinCompletion_effect {signature : ℕ}
    (h : l.submitGoldcoinCompletion id signature = .ok l') : Effect op l l' := by
  simp only [submitGoldcoinCompletion, recordGoldcoinCompletionSubmitted, bind_eq_ok,
    request_eq_ok, require_eq_ok, exists_unit, orFail_eq_ok] at h
  obtain ⟨r, hget, hroute, r', hget', p, hp, h⟩ := h
  obtain rfl : r' = r := Option.some.inj (hget'.symm.trans hget)
  by_cases hdone : p.state = .completed
  · rw [if_pos hdone, pure_eq_ok] at h
    exact h ▸ .refl
  · rw [if_neg hdone] at h
    simp only [bind_eq_ok, require_eq_ok, exists_unit, pure_eq_ok] at h
    obtain ⟨-, rfl⟩ := h
    exact .set hget (.completionSubmitted hp hroute signature)

/-- A completion that was confirmed now, or was before. -/
theorem goldcoinCompletionConfirmed_cases {submitted : Bool}
    (h : l.goldcoinCompletionConfirmed id submitted = .ok l') :
    ∃ r, l.requests.get? id = some r ∧ ((l' = l ∧ r.state = .settled) ∨
      (r.state = .destinationConfirmed ∧
        (submitted = true → (r.goldcoinPayout.bind GoldcoinPayout.completionSignature).isSome) ∧
        ∃ txid, l' = (({ l with
            vault := l.vault.markSpent (fun _ u => u.reservedBy = some id) txid
          }.setRequest id { r.transition .settled with
          goldcoinPayout := r.goldcoinPayout.map fun (p : GoldcoinPayout) =>
            { p with state := .completed } }).settle .goldcoinReserve r.netDestination).accrueFee
              .solanaReserve r.feeAmount)) := by
  simp only [goldcoinCompletionConfirmed, bind_eq_ok, request_eq_ok] at h
  obtain ⟨r, hget, h⟩ := h
  refine ⟨r, hget, ?_⟩
  by_cases hdone : r.state = .settled
  · rw [if_pos hdone, pure_eq_ok] at h
    exact .inl ⟨h.symm, hdone⟩
  · rw [if_neg hdone] at h
    simp only [bind_eq_ok, require_eq_ok, exists_unit, pure_eq_ok] at h
    exact .inr ⟨h.1, h.2.1, _, h.2.2.symm⟩

/-- The completion of a request that is paid on Goldcoin out of Solana. -/
theorem goldcoinCompletionConfirmed_effect {submitted : Bool} (hop : op.touchesVault = true)
    (hroute : ∀ r, l.requests.get? id = some r →
      (submitted = true → (r.goldcoinPayout.bind GoldcoinPayout.completionSignature).isSome) →
      r.direction = .solToGlc)
    (h : l.goldcoinCompletionConfirmed id submitted = .ok l') : Effect op l l' := by
  obtain ⟨r, hget, ⟨rfl, -⟩ | ⟨hstate, hsubmitted, vault, rfl⟩⟩ :=
    goldcoinCompletionConfirmed_cases h
  · exact .refl
  · have hdirection := hroute r hget hsubmitted
    have hreserve : r.direction.destinationReserve = .goldcoinReserve := by
      rw [hdirection]
      rfl
    refine .moved hget (.completionConfirmed hstate hdirection) rfl (fun d => ?_) (by simp [hop])
    rw [books_accrueFee, books_settle, books_setRequest, books_withVault, hreserve]

theorem applyCompletionLanded_effect (h : l.applyCompletionLanded id = .ok l') :
    Effect (.applyCompletionLanded id) l l' := by
  simp only [applyCompletionLanded, reconcileGoldcoinCompletionFromChain, bind_eq_ok,
    request_eq_ok, require_eq_ok, exists_unit] at h
  obtain ⟨r, hget, hdirection, r', hget', h⟩ := h
  obtain rfl : r' = r := Option.some.inj (hget'.symm.trans hget)
  by_cases hdone : r'.state = .settled
  · rw [if_pos hdone, pure_eq_ok] at h
    exact h ▸ .refl
  · rw [if_neg hdone] at h
    simp only [bind_eq_ok, require_eq_ok, exists_unit] at h
    refine goldcoinCompletionConfirmed_effect rfl (fun r hr _ => ?_) h.2
    rwa [Option.some.inj (hr.symm.trans hget)]

/-! ### Operations on Robinhood -/

theorem robinhoodTx_eq_ok {kind : RobinhoodTxKind} {t : RobinhoodTx} :
    l.robinhoodTx kind id = .ok (r, t) ↔
      l.requests.get? id = some r ∧ r.robinhoodTx kind = some t := by
  simp only [robinhoodTx, bind_eq_ok, request_eq_ok, orFail_eq_ok, pure_eq_ok, Prod.mk.injEq]
  constructor
  · rintro ⟨_, hget, _, ht, rfl, rfl⟩
    exact ⟨hget, ht⟩
  · rintro ⟨hget, ht⟩
    exact ⟨r, hget, t, ht, rfl, rfl⟩

/-- An operation that has a row gets another one. -/
theorem setRobinhoodTx_effect {kind : RobinhoodTxKind} {t t' : RobinhoodTx}
    (hget : l.requests.get? id = some r) (ht : r.robinhoodTx kind = some t) :
    Effect op l (l.setRequest id (r.setRobinhoodTx kind t')) :=
  .set hget (.robinhoodTx fun hnone => by rw [ht] at hnone; cases hnone)

theorem beginRobinhoodTx_effect {kind : RobinhoodTxKind} {digest : ℕ}
    (h : l.beginRobinhoodTx kind id digest = .ok l') :
    Effect (.beginRobinhoodTx kind id digest) l l' := by
  simp only [beginRobinhoodTx, bind_eq_ok, request_eq_ok] at h
  obtain ⟨r, hget, h⟩ := h
  by_cases hexists : (r.robinhoodTx kind).isSome
  · rw [if_pos hexists, pure_eq_ok] at h
    exact h ▸ .refl
  · rw [if_neg hexists, pure_eq_ok] at h
    exact h ▸ .set hget (.robinhoodTx fun _ => ⟨rfl, digest, rfl⟩)

theorem recordRobinhoodAuthorization_effect {kind : RobinhoodTxKind} {signatures : List (ℕ × ℕ)}
    (h : l.recordRobinhoodAuthorization kind id signatures = .ok l') : Effect op l l' := by
  simp only [recordRobinhoodAuthorization, bind_eq_ok, require_eq_ok, exists_unit] at h
  obtain ⟨-, -, ⟨r, t⟩, hrow, h⟩ := h
  obtain ⟨hget, ht⟩ := robinhoodTx_eq_ok.mp hrow
  dsimp only at h
  by_cases hsigned : t.signatures = []
  · rw [if_neg (not_not.mpr hsigned)] at h
    simp only [bind_eq_ok, require_eq_ok, exists_unit, pure_eq_ok] at h
    exact h.2 ▸ setRobinhoodTx_effect hget ht
  · rw [if_pos hsigned] at h
    simp only [bind_eq_ok, require_eq_ok, exists_unit, pure_eq_ok] at h
    exact h.2 ▸ .refl

theorem recordRobinhoodSigned_effect {kind : RobinhoodTxKind} {raw : ℕ}
    (h : l.recordRobinhoodSigned kind id raw = .ok l') : Effect op l l' := by
  simp only [recordRobinhoodSigned, bind_eq_ok] at h
  obtain ⟨⟨r, t⟩, hrow, h⟩ := h
  obtain ⟨hget, ht⟩ := robinhoodTx_eq_ok.mp hrow
  dsimp only at h
  cases hraw : t.rawTx with
  | some stored =>
    rw [hraw] at h
    simp only [bind_eq_ok, require_eq_ok, exists_unit, pure_eq_ok] at h
    exact h.2 ▸ .refl
  | none =>
    rw [hraw] at h
    simp only [bind_eq_ok, require_eq_ok, exists_unit, pure_eq_ok] at h
    exact h.2 ▸ setRobinhoodTx_effect hget ht

theorem recordRobinhoodBroadcast_effect {kind : RobinhoodTxKind}
    (h : l.recordRobinhoodBroadcast kind id = .ok l') : Effect op l l' := by
  simp only [recordRobinhoodBroadcast, bind_eq_ok, require_eq_ok, exists_unit, pure_eq_ok] at h
  obtain ⟨⟨r, t⟩, hrow, -, rfl⟩ := h
  obtain ⟨hget, ht⟩ := robinhoodTx_eq_ok.mp hrow
  exact setRobinhoodTx_effect hget ht

theorem recordRobinhoodReceipt_effect {kind : RobinhoodTxKind} {success : Bool} {block : ℕ}
    (h : l.recordRobinhoodReceipt kind id success block = .ok l') : Effect op l l' := by
  simp only [recordRobinhoodReceipt, bind_eq_ok] at h
  obtain ⟨⟨r, t⟩, hrow, h⟩ := h
  obtain ⟨hget, ht⟩ := robinhoodTx_eq_ok.mp hrow
  dsimp only at h
  by_cases hother : ∃ stored ∈ t.receiptBlock, stored ≠ block
  · rw [if_pos hother] at h
    simp only [bind_eq_ok, require_eq_ok, exists_unit, pure_eq_ok] at h
    exact h.2 ▸ setRobinhoodTx_effect hget ht
  rw [if_neg hother] at h
  by_cases hdone : t.state = .finalized ∨ t.state = .reverted ∨ t.state = .manualReview
  · rw [if_pos hdone, pure_eq_ok] at h
    exact h ▸ .refl
  · rw [if_neg hdone] at h
    simp only [bind_eq_ok, require_eq_ok, exists_unit, pure_eq_ok] at h
    exact h.2 ▸ setRobinhoodTx_effect hget ht

theorem updateRobinhoodConfirmations_effect {kind : RobinhoodTxKind} {c q now : ℤ}
    (h : l.updateRobinhoodConfirmations kind id c q now = .ok l') : Effect op l l' := by
  simp only [updateRobinhoodConfirmations, bind_eq_ok] at h
  obtain ⟨⟨r, t⟩, hrow, h⟩ := h
  obtain ⟨hget, ht⟩ := robinhoodTx_eq_ok.mp hrow
  dsimp only at h
  by_cases hdone : t.state = .finalized
  · rw [if_pos hdone, pure_eq_ok] at h
    exact h ▸ .refl
  rw [if_neg hdone] at h
  simp only [bind_eq_ok, require_eq_ok, exists_unit, pure_eq_ok] at h
  obtain ⟨-, h⟩ := h
  split_ifs at h with hdeep
  · exact h ▸ setRobinhoodTx_effect hget ht
  · exact h ▸ .refl

theorem markRobinhoodTxManualReview_effect {kind : RobinhoodTxKind}
    (h : l.markRobinhoodTxManualReview kind id = .ok l') : Effect op l l' := by
  simp only [markRobinhoodTxManualReview, bind_eq_ok, require_eq_ok, exists_unit, pure_eq_ok] at h
  obtain ⟨⟨r, t⟩, hrow, -, rfl⟩ := h
  obtain ⟨hget, ht⟩ := robinhoodTx_eq_ok.mp hrow
  exact setRobinhoodTx_effect hget ht

/-- A payout that was settled now, or was before. -/
theorem markRobinhoodPayoutSettled_cases (h : l.markRobinhoodPayoutSettled id = .ok l') :
    ∃ r, l.requests.get? id = some r ∧ r.direction.destinationIsRobinhood ∧
      ((l' = l ∧ (r.state = .settled ∨
          (r.state = .destinationConfirmed ∧ ¬ r.direction.settlesOnPayout))) ∨
        (¬ (r.state = .settled ∨ (r.state = .destinationConfirmed ∧ ¬ r.direction.settlesOnPayout)) ∧
          l' = ((l.setRequest id (if r.direction.settlesOnPayout then
              (r.transition .destinationConfirmed).transition .settled
            else r.transition .destinationConfirmed)).settle .robinhoodReserve
              r.netDestination).accrueFee r.direction.sourceReserve r.feeAmount)) := by
  simp only [markRobinhoodPayoutSettled, bind_eq_ok, request_eq_ok, require_eq_ok,
    exists_unit] at h
  obtain ⟨r, hget, hdestination, h⟩ := h
  refine ⟨r, hget, hdestination, ?_⟩
  by_cases hdone : r.state = .settled ∨
      (r.state = .destinationConfirmed ∧ ¬ r.direction.settlesOnPayout)
  · rw [if_pos hdone, pure_eq_ok] at h
    exact .inl ⟨h.symm, hdone⟩
  · rw [if_neg hdone, pure_eq_ok] at h
    exact .inr ⟨hdone, h.symm⟩

theorem markRobinhoodPayoutSettled_effect (h : l.markRobinhoodPayoutSettled id = .ok l') :
    Effect (.markRobinhoodPayoutSettled id) l l' := by
  obtain ⟨r, hget, hdestination, ⟨rfl, -⟩ | ⟨hstate, rfl⟩⟩ := markRobinhoodPayoutSettled_cases h
  · exact .refl
  · have hreserve : r.direction.destinationReserve = .robinhoodReserve := by
      rw [Direction.destinationReserve, hdestination]
    exact .setSettled hget hreserve (.robinhoodPayoutSettled rfl hdestination hstate)

theorem recordRobinhoodPayoutCompletionSubmitted_effect {signature : ℕ}
    (h : l.recordRobinhoodPayoutCompletionSubmitted id signature = .ok l') : Effect op l l' := by
  simp only [recordRobinhoodPayoutCompletionSubmitted, bind_eq_ok, request_eq_ok, require_eq_ok,
    exists_unit] at h
  obtain ⟨r, hget, -, h⟩ := h
  by_cases hdone : r.state = .settled
  · rw [if_pos hdone, pure_eq_ok] at h
    exact h ▸ .refl
  rw [if_neg hdone] at h
  simp only [bind_eq_ok, require_eq_ok, exists_unit, orFail_eq_ok, pure_eq_ok] at h
  obtain ⟨-, t, ht, -, rfl⟩ := h
  exact setRobinhoodTx_effect hget ht

theorem markRobinhoodPayoutCompletionConfirmed_effect
    (h : l.markRobinhoodPayoutCompletionConfirmed id = .ok l') : Effect op l l' := by
  simp only [markRobinhoodPayoutCompletionConfirmed, bind_eq_ok, request_eq_ok, require_eq_ok,
    exists_unit] at h
  obtain ⟨r, hget, hroute, h⟩ := h
  by_cases hdone : r.state = .settled
  · rw [if_pos hdone, pure_eq_ok] at h
    exact h ▸ .refl
  rw [if_neg hdone] at h
  simp only [bind_eq_ok, require_eq_ok, exists_unit, pure_eq_ok] at h
  obtain ⟨hstate, -, rfl⟩ := h
  exact .set hget (.robinhoodPayoutCompleted hstate hroute)

/-- A settlement that was confirmed now, or was before. -/
theorem robinhoodSettleConfirmed_cases (h : l.robinhoodSettleConfirmed id = .ok l') :
    ∃ r, l.requests.get? id = some r ∧ r.direction.sourceIsRobinhood ∧
      ((l' = l ∧ r.state = .settled) ∨ (r.state = .destinationConfirmed ∧
        ((r.direction = .rhnToGlc ∧
          l' = ((l.setRequest id { r.transition .settled with
            goldcoinPayout := r.goldcoinPayout.map fun p =>
              if p.state = .confirmed then { p with state := .completed } else p }).settle
              .goldcoinReserve r.netDestination).accrueFee .robinhoodReserve r.feeAmount) ∨
        (r.direction = .rhnToSol ∧ l' = l.setRequest id (r.transition .settled))))) := by
  simp only [robinhoodSettleConfirmed, bind_eq_ok, request_eq_ok, require_eq_ok, exists_unit] at h
  obtain ⟨r, hget, hsource, h⟩ := h
  refine ⟨r, hget, hsource, ?_⟩
  by_cases hdone : r.state = .settled
  · rw [if_pos hdone, pure_eq_ok] at h
    exact .inl ⟨h.symm, hdone⟩
  rw [if_neg hdone] at h
  simp only [bind_eq_ok, require_eq_ok, exists_unit] at h
  obtain ⟨hstate, h⟩ := h
  refine .inr ⟨hstate, ?_⟩
  by_cases hroute : r.direction = .rhnToGlc
  · rw [if_pos hroute, pure_eq_ok] at h
    exact .inl ⟨hroute, h.symm⟩
  · rw [if_neg hroute, pure_eq_ok] at h
    refine .inr ⟨?_, h.symm⟩
    revert hsource hroute
    cases r.direction <;> simp [Direction.sourceIsRobinhood, Direction.sourceChain]

theorem robinhoodSettleConfirmed_effect (h : l.robinhoodSettleConfirmed id = .ok l') :
    Effect op l l' := by
  obtain ⟨r, hget, -, ⟨rfl, -⟩ | ⟨hstate, ⟨hroute, rfl⟩ | ⟨hroute, rfl⟩⟩⟩ :=
    robinhoodSettleConfirmed_cases h
  · exact .refl
  · have hreserve : r.direction.destinationReserve = .goldcoinReserve := by
      rw [hroute]
      rfl
    refine .setSettled hget hreserve (.robinhoodSettledGoldcoin hstate hroute _ ?_)
    cases r.goldcoinPayout with
    | none => simp
    | some p => by_cases hp : p.state = .confirmed <;> simp [hp]
  · exact .set hget (.robinhoodSettled hstate hroute)

theorem reconcileRobinhoodSettlementFromChain_effect {block : ℕ} {now : ℤ}
    (hop : op.isCompound = true)
    (h : l.reconcileRobinhoodSettlementFromChain id block now = .ok l') : Effect op l l' := by
  simp only [reconcileRobinhoodSettlementFromChain, bind_eq_ok] at h
  obtain ⟨⟨r, t⟩, hrow, h⟩ := h
  obtain ⟨hget, ht⟩ := robinhoodTx_eq_ok.mp hrow
  dsimp only at h
  by_cases hdone : t.state = .finalized ∧ r.state = .settled
  · rw [if_pos hdone, pure_eq_ok] at h
    exact h ▸ .refl
  rw [if_neg hdone] at h
  simp only [bind_eq_ok, require_eq_ok, exists_unit] at h
  obtain ⟨-, -, -, h⟩ := h
  exact (setRobinhoodTx_effect hget ht).seq hop (robinhoodSettleConfirmed_effect h)

/-! ### New rows -/

@[simp] theorem isSome_books {d : ReserveDirection} :
    (l.books d).isSome = (l.reserves d).isSome := by simp [books]

theorem createRequestFrom_cases {d : Direction} {a : RequestAmounts} {recipient : Bytes}
    {requester wallet : Option Bytes} {ttl now : ℤ}
    (h : l.createRequestFrom d a recipient requester wallet ttl now = .ok l') :
    l' = l ∨ ∃ r v, NewRow r ∧ r.direction = d ∧ r.state = .awaitingDeposit ∧
      (r.sourceTxid = none ∧ r.sourceVout = none) ∧ r.sourceFinalizedAt = none ∧
      r.sourceObligationIndex = none ∧ r.recipient = recipient ∧
      r.netDestination = asI64 a.netDestination ∧
      l.reserves d.destinationReserve = some v ∧ asI64 a.netDestination ≤ v.headroom ∧
      l' = (l.insertRequest r).addReserved d.destinationReserve (asI64 a.netDestination) := by
  simp only [createRequestFrom, bind_eq_ok, reserve_eq_ok] at h
  obtain ⟨quoted, -, v, hv, h⟩ := h
  by_cases hpaused : v.paused = true
  · rw [if_pos hpaused, pure_eq_ok] at h
    exact .inl h.symm
  rw [if_neg hpaused] at h
  by_cases hclosed : l.routeAdmissionClosed d = true
  · rw [if_pos hclosed, pure_eq_ok] at h
    exact .inl h.symm
  rw [if_neg hclosed] at h
  split at h
  · exact .inl (pure_eq_ok.mp h).symm
  split at h
  · exact .inl (pure_eq_ok.mp h).symm
  rename_i hroom
  simp only [bind_eq_ok, require_eq_ok, exists_unit, pure_eq_ok] at h
  obtain ⟨-, rfl⟩ := h
  refine .inr ⟨_, v, ?_, ?_, ?_, ?_, ?_, ?_, ?_, ?_, hv, not_lt.mp hroom, rfl⟩
  · constructor <;> first | rfl | exact .inl ⟨rfl, rfl⟩ | simp
  · rfl
  · rfl
  · exact ⟨rfl, rfl⟩
  · rfl
  · rfl
  · rfl
  · dsimp only [Request.insert]

theorem createRequestFrom_effect {d : Direction} {a : RequestAmounts} {recipient : Bytes}
    {requester wallet : Option Bytes} {ttl now : ℤ}
    (h : l.createRequestFrom d a recipient requester wallet ttl now = .ok l') :
    Effect (.createRequest d a recipient requester wallet ttl now) l l' := by
  obtain rfl | ⟨r, v, hnew, rfl, hstate, hsource, hfinal, hindex, hrecipient, hnet, hv, -, rfl⟩ :=
    createRequestFrom_cases h
  · exact .refl
  · refine .inserted (.awaiting hnew hstate hsource hfinal) (by simp [hv]) rfl (fun e => ?_) rfl
      (by simp [hindex]) (by rw [hrecipient]; rfl) fun hfinal => ?_
    swap
    · rw [hstate] at hfinal
      cases hfinal
    rw [books_addReserved, books_insertRequest, hnet]

/-- What a fold parks under never keeps a reservation. -/
theorem isFoldPark_of_foldNote {g : InboundAdmissionGates} {net : ℤ}
    {limits : RouteWalletEligibility} {burst routeOpen : Bool} {refusal : Option FoldRefusal}
    {destination : Option Bytes} {reason : ParkReason}
    (h : foldNote burst refusal destination routeOpen (g.blocker net limits) = some reason) :
    reason.isFoldPark = true := by
  unfold foldNote at h
  by_cases hburst : burst = true
  · rw [if_pos hburst] at h
    obtain rfl := Option.some.inj h
    rfl
  rw [if_neg hburst] at h
  by_cases hrefusal : refusal.isSome
  · rw [if_pos hrefusal] at h
    obtain ⟨refusal, -, rfl⟩ := Option.map_eq_some_iff.mp h
    cases refusal with
    | rate refusal => cases refusal <;> rfl
    | bandExceeded => rfl
    | destinationPayoutOutOfBounds => rfl
    | other text => rfl
  rw [if_neg hrefusal] at h
  by_cases hdestination : destination.isNone
  · rw [if_pos hdestination] at h
    obtain rfl := Option.some.inj h
    rfl
  rw [if_neg hdestination] at h
  by_cases hroute : routeOpen = true
  swap
  · rw [if_pos hroute] at h
    obtain rfl := Option.some.inj h
    rfl
  · rw [if_neg (not_not.mpr hroute)] at h
    unfold InboundAdmissionGates.blocker at h
    split_ifs at h <;> · obtain rfl := Option.some.inj h
                         rfl

/-- What is not blocked clears the window of its destination. -/
theorem destinationRetryAfter_of_blocker {g : InboundAdmissionGates} {net : ℤ}
    {limits : RouteWalletEligibility} (h : g.blocker net limits = none) :
    limits.destinationRetryAfter = none := by
  unfold InboundAdmissionGates.blocker at h
  split_ifs at h with _ _ _ _ hdestination
  exact Option.not_isSome_iff_eq_none.mp hdestination

/-- The row of a fold, admitted or parked. -/
theorem foldDeposit_cases {d : Direction} {a : RequestAmounts} {quoted : Bool}
    {src : DepositSource} {destination : Option Bytes} {recipient : Bytes} {routeOpen : Bool}
    {refusal : Option FoldRefusal} {now : ℤ}
    (h : l.foldDeposit d a quoted src destination recipient routeOpen refusal now = .ok l') :
    ∃ r v, NewRow r ∧ r.direction = d ∧ r.netDestination = asI64 a.netDestination ∧
      r.recipient = recipient ∧ r.createdAt = now ∧ r.quoted = quoted ∧
      (∃ burst blocker, r.manualReviewNote =
        foldNote burst refusal destination routeOpen blocker) ∧
      (∀ o ∈ src.outpoint, ¬ l.SourceOutpointTaken none o.1 o.2) ∧
      r.sourceTxid = src.outpoint.map Prod.fst ∧ r.sourceVout = src.outpoint.map Prod.snd ∧
      r.sourceObligationIndex = some src.obligationIndex ∧
      (l.evaluateLiquidityGate d.destinationReserve).reserves d.destinationReserve = some v ∧
      ((r.state = .sourceFinalized ∧
          (InboundAdmissionGates.read (l.evaluateLiquidityGate d.destinationReserve) d v).blocker
            (asI64 a.netDestination)
            ((l.evaluateLiquidityGate d.destinationReserve).routeWalletEligibility d
              (some src.wallet) destination now .newRequest) = none ∧ destination.isSome ∧
          l' = ((l.evaluateLiquidityGate d.destinationReserve).insertRequest r).addObligation
            d.destinationReserve (asI64 a.netDestination)) ∨
        (r.state = .manualReview ∧ (∃ reason ∈ r.manualReviewNote, reason.isFoldPark = true) ∧
          l' = (l.evaluateLiquidityGate d.destinationReserve).insertRequest r)) := by
  simp only [foldDeposit, bind_eq_ok, reserve_eq_ok, require_eq_ok, exists_unit, pure_eq_ok] at h
  obtain ⟨v, hv, -, -, hfree, h⟩ := h
  generalize hburst : (l.evaluateLiquidityGate d.destinationReserve).rapidBurstVerdict d
    (some src.wallet) destination a.gross now .newRequest = burst at h
  generalize hnote : foldNote burst refusal destination routeOpen _ = note at h
  cases note with
  | none =>
    -- nothing refused it, a burst least of all
    have hclear : burst = false ∧ destination.isSome ∧
        (InboundAdmissionGates.read (l.evaluateLiquidityGate d.destinationReserve) d v).blocker
          (asI64 a.netDestination)
          ((l.evaluateLiquidityGate d.destinationReserve).routeWalletEligibility d
            (some src.wallet) destination now .newRequest) = none := by
      unfold foldNote at hnote
      split_ifs at hnote with h₁ h₂ h₃ h₄
      · obtain ⟨x, hx⟩ := Option.isSome_iff_exists.mp h₂
        rw [hx] at hnote
        cases hnote
      · exact ⟨by simpa using h₁, by simpa [Option.isSome_iff_ne_none] using h₃, hnote⟩
    obtain ⟨rfl, hdest, hblocker⟩ := hclear
    simp only [Bool.false_eq_true, if_false, Option.isNone_none, if_true] at h
    subst h
    refine ⟨_, v, ?_, ?_, ?_, ?_, ?_, ?_, ⟨_, _, hnote.symm⟩, hfree, ?_, ?_, ?_, hv,
      .inl ⟨?_, hblocker, hdest, rfl⟩⟩
    · constructor <;> first | rfl | exact .inl ⟨rfl, rfl⟩ | simp [Request.insert]
    all_goals dsimp only [Request.insert]
  | some reason =>
    have hpark := isFoldPark_of_foldNote hnote
    -- a burst is held besides
    cases burst with
    | false =>
      simp only [Bool.false_eq_true, if_false, Option.isNone_some] at h
      subst h
      refine ⟨_, v, ?_, ?_, ?_, ?_, ?_, ?_, ⟨_, _, hnote.symm⟩, hfree, ?_, ?_, ?_, hv,
        .inr ⟨?_, ⟨reason, ?_, hpark⟩, rfl⟩⟩
      · constructor <;> first | rfl | exact .inl ⟨rfl, rfl⟩ | simp [Request.insert]
      all_goals dsimp only [Request.insert]
      rfl
    | true =>
      simp only [if_true, Bool.false_eq_true, if_false, Option.isNone_some] at h
      subst h
      refine ⟨_, v, ?_, ?_, ?_, ?_, ?_, ?_, ⟨_, _, hnote.symm⟩, hfree, ?_, ?_, ?_, hv,
        .inr ⟨?_, ⟨reason, ?_, hpark⟩, rfl⟩⟩
      · constructor <;> first
          | rfl
          | exact .inr ⟨rfl, rfl, rfl⟩
          | simp [Request.insert, markRapidBurstHold, Request.transition]
      all_goals dsimp only [Request.insert, markRapidBurstHold, Request.transition]
      rfl

theorem foldDeposit_effect {d : Direction} {a : RequestAmounts} {quoted : Bool}
    {src : DepositSource} {destination : Option Bytes} {recipient : Bytes} {routeOpen : Bool}
    {refusal : Option FoldRefusal} {now : ℤ} (hsource : ¬ d.sourceIsGoldcoin)
    (hop : d.sourceIsSolana → op.foldsSolana = true)
    (hrecorded : op.recorded = some (d, recipient))
    (hdestination : ∀ b ∈ destination, recipient = b)
    (h : l.foldDeposit d a quoted src destination recipient routeOpen refusal now = .ok l') :
    Effect op l l' := by
  obtain ⟨r, v, hnew, rfl, hnet, rfl, rfl, -, -, -, -, -, -, hv, hrow⟩ := foldDeposit_cases h
  have hrow' : (l.books r.direction.destinationReserve).isSome := by
    rw [isSome_books, ← isSome_updateReserve]
    exact Option.isSome_iff_exists.mpr ⟨v, hv⟩
  obtain ⟨hstate, hblocker, hdest, rfl⟩ | ⟨hstate, hnote, rfl⟩ := hrow
  · refine .inserted (.admitted hnew hsource hstate) hrow' rfl (fun e => ?_) rfl
      (fun h _ => hop h) hrecorded fun _ => ?_
    · rw [books_addObligation, books_insertRequest, books_evaluateLiquidityGate, hnet]
    · obtain ⟨b, hb⟩ := Option.isSome_iff_exists.mp hdest
      have hopen := destinationRetryAfter_of_blocker hblocker
      rw [routeWalletEligibility, hb, Option.bind_some, ← hdestination b hb] at hopen
      exact hopen
  · refine .inserted (.parked hnew hsource hstate hnote) hrow' rfl (fun e => ?_) rfl
      (fun h _ => hop h) hrecorded fun hfinal => ?_
    · rw [books_insertRequest, books_evaluateLiquidityGate]
      simp
    · rw [hstate] at hfinal
      cases hfinal

theorem foldSolDeposit_effect {index : ℕ} {a : RequestAmounts} {requester recipient : Bytes}
    {refusal : Option FoldRefusal} {now : ℤ}
    (h : l.foldSolDeposit index a requester recipient refusal now = .ok l') :
    Effect (.foldSolDeposit index a requester recipient refusal now) l l' := by
  simp only [foldSolDeposit, bind_eq_ok] at h
  obtain ⟨quoted, -, h⟩ := h
  split_ifs at h with hfolded
  · exact pure_eq_ok.mp h ▸ .refl
  · refine foldDeposit_effect (by decide) (fun _ => rfl) rfl ?_ h
    rintro b ⟨⟩
    rfl

theorem foldSolDepositToRobinhood_effect {index : ℕ} {a : RequestAmounts} {requester : Bytes}
    {evm : Option Bytes} {raw : Bytes} {routeOpen : Bool} {refusal : Option FoldRefusal} {now : ℤ}
    (h : l.foldSolDepositToRobinhood index a requester evm raw routeOpen refusal now = .ok l') :
    Effect (.foldSolDepositToRobinhood index a requester evm raw routeOpen refusal now) l l' := by
  simp only [foldSolDepositToRobinhood, bind_eq_ok, require_eq_ok, exists_unit] at h
  obtain ⟨-, quoted, -, h⟩ := h
  split_ifs at h with hfolded
  · exact pure_eq_ok.mp h ▸ .refl
  · refine foldDeposit_effect (by decide) (fun _ => rfl) rfl ?_ h
    rintro b ⟨⟩
    rfl

theorem foldRobinhoodDeposit_effect {obs : RobinhoodObservation} {a : RequestAmounts}
    {destination : Option Bytes} {routeOpen : Bool} {refusal : Option FoldRefusal} {now : ℤ}
    (h : l.foldRobinhoodDeposit obs a destination routeOpen refusal now = .ok l') :
    Effect (.foldRobinhoodDeposit obs a destination routeOpen refusal now) l l' := by
  simp only [foldRobinhoodDeposit, bind_eq_ok, require_eq_ok, exists_unit] at h
  obtain ⟨hsource, -, quoted, -, h⟩ := h
  by_cases hfolded : l.RobinhoodObligationFolded obs.sourceContract obs.obligationIndex
  · rw [if_pos hfolded, pure_eq_ok] at h
    exact h ▸ .refl
  · rw [if_neg hfolded] at h
    simp only [bind_eq_ok, require_eq_ok, exists_unit] at h
    refine foldDeposit_effect (fun hg => ?_) (fun hg => ?_) rfl ?_ h.2
    · rw [Direction.sourceIsGoldcoin, hsource] at hg
      cases hg
    · rw [Direction.sourceIsSolana, hsource] at hg
      cases hg
    · rintro b ⟨⟩
      rfl

/-! ### Settings -/

theorem applySetting_effect {s : Setting} : Effect op l (l.applySetting s) := by
  have row : ∀ (d : ReserveDirection) (f : Reserve → Reserve),
      (∀ v, (f v).reservedLiquidity = v.reservedLiquidity ∧
        (f v).pendingObligations = v.pendingObligations) → Effect op l (l.updateReserve d f) :=
    fun _ _ hf => .idle rfl (fun _ => books_updateReserve_of_eq hf) fun _ => rfl
  cases s with
  | paused d b => exact row _ _ fun _ => ⟨rfl, rfl⟩
  | admission d closed => exact row _ _ fun _ => ⟨rfl, rfl⟩
  | admissionBuffer d buffer reopen => exact row _ _ fun _ => ⟨rfl, rfl⟩
  | utxoPoolMinAvailable d count => exact row _ _ fun _ => ⟨rfl, rfl⟩
  | routeAdmission d closed => exact .idle rfl (fun _ => rfl) fun _ => rfl
  | rapidBurst policy => exact .idle rfl (fun _ => rfl) fun _ => rfl
  | boundContract contract => exact .idle rfl (fun _ => rfl) fun _ => rfl
  | retainedCancel enabled => exact .idle rfl (fun _ => rfl) fun _ => rfl

/-- A reserve that was not configured starts with nothing on its books. -/
theorem configureReserve_effect {d : ReserveDirection} {balance minimum : ℕ} :
    Effect op l (l.configureReserve d balance minimum) := by
  refine .configured rfl (fun e => ?_) rfl
  by_cases he : e = d
  · subst he
    cases hv : l.reserves e with
    | none => exact .inr ⟨by simp [books, hv], by simp [books, configureReserve, hv, Prod.mk_zero_zero]⟩
    | some v => exact .inl (by simp [books, configureReserve, hv])
  · exact .inl (by simp [books, configureReserve, he])

theorem onVault_effect {x : Except LedgerError Vault} (hop : op.touchesVault = true)
    (h : l.onVault x = .ok l') : Effect op l l' := by
  obtain ⟨vault, -, rfl⟩ := map_eq_ok.mp h
  exact .idle rfl (fun _ => books_withVault) (by simp [hop])

end Ledger

/-! ## The row invariant -/

/-- What the rows of the payout and refund tables say about their request. -/
structure Request.Wf (r : Request) : Prop where
  payout : r.goldcoinPayout.isSome → r.direction.destinationIsGoldcoin
  completion : (r.goldcoinPayout.bind GoldcoinPayout.completionSignature).isSome →
    r.direction = .solToGlc
  refund : r.goldcoinRefund.isSome → r.direction.sourceIsGoldcoin
  solanaRefund : r.solanaRefund.isSome → r.direction.sourceIsSolana
  confirming : r.state = .confirming → r.direction.sourceIsGoldcoin
  released : ∀ f ∈ r.goldcoinRefund, f.reservationReleased = true → f.state = .refunded

/-- Rows of the same request in two states: all but the state itself carries
over. -/
theorem SameRows.wf {r r' : Request} (h : SameRows r r') (hwf : r.Wf)
    (confirming : r'.state = .confirming → r'.direction.sourceIsGoldcoin) : r'.Wf where
  payout := by
    rw [h.goldcoinPayout, h.direction]
    exact hwf.payout
  completion := by
    rw [h.goldcoinPayout, h.direction]
    exact hwf.completion
  refund := by
    rw [h.goldcoinRefund, h.direction]
    exact hwf.refund
  solanaRefund := by
    rw [h.solanaRefund, h.direction]
    exact hwf.solanaRefund
  confirming := confirming
  released := by
    rw [h.goldcoinRefund]
    exact hwf.released

theorem SameRows.trans {r₁ r₂ r₃ : Request} (h : SameRows r₁ r₂) (h' : SameRows r₂ r₃) :
    SameRows r₁ r₃ := by
  constructor
  · exact h'.direction.trans h.direction
  · exact h'.gross.trans h.gross
  · exact h'.recipient.trans h.recipient
  · exact h'.createdAt.trans h.createdAt
  · exact h'.sourceFinalizedAt.trans h.sourceFinalizedAt
  · exact h'.sourceContract.trans h.sourceContract
  · exact h'.destinationTxid.trans h.destinationTxid
  · exact h'.solanaRefund.trans h.solanaRefund
  · exact h'.goldcoinRefund.trans h.goldcoinRefund
  · exact h'.goldcoinPayout.trans h.goldcoinPayout
  · exact h'.robinhoodTx.trans h.robinhoodTx
  · exact h'.releaseAttested.trans h.releaseAttested
  · exact h'.closure.trans h.closure
  · exact h'.operatorDecision.trans h.operatorDecision

theorem Ledger.Awaiting.rows {r r₀ : Request} {n : ℤ} (h : Ledger.Awaiting r r₀ n) :
    SameRows r r₀ := by
  cases h <;> constructor <;> rfl

theorem NewRow.wf {r : Request} (h : NewRow r) (hstate : r.state ≠ .confirming) : r.Wf where
  payout hp := by rw [h.goldcoinPayout] at hp; cases hp
  completion hp := by rw [h.goldcoinPayout] at hp; cases hp
  refund hf := by rw [h.goldcoinRefund] at hf; cases hf
  solanaRefund hf := by rw [h.solanaRefund] at hf; cases hf
  confirming hc := absurd hc hstate
  released f hf := by rw [h.goldcoinRefund] at hf; cases hf

theorem Inserted.wf {r : Request} {δ : ℤ × ℤ} (h : Inserted r δ) : r.Wf := by
  cases h with
  | awaiting fresh state => exact fresh.wf (by simp [state])
  | admitted fresh _ state => exact fresh.wf (by simp [state])
  | parked fresh _ state => exact fresh.wf (by simp [state])

namespace Transition

variable {op : Op} {id : ℕ} {r r' : Request} {δ : ℤ × ℤ}

/-- A request never changes its route. -/
theorem direction_eq (h : Transition op id r r' δ) : r'.direction = r.direction := by
  cases h with
  | observed _ _ h₀ h₁ h => exact ((h₀.rows.trans h₁.rows).trans h.rows).direction
  | solanaRefundBroadcast => split_ifs <;> rfl
  | releaseConfirmed => split_ifs <;> rfl
  | robinhoodPayoutSettled => split_ifs <;> rfl
  | _ => rfl

theorem wf (h : Transition op id r r' δ) (hwf : r.Wf) : r'.Wf := by
  have hrows := hwf
  obtain ⟨hpayout, hcompletion, hrefund, hsolana, hconfirming, hreleased⟩ := hwf
  -- most transitions leave the other tables alone
  have same : r'.direction = r.direction → r'.goldcoinPayout = r.goldcoinPayout →
      r'.goldcoinRefund = r.goldcoinRefund → r'.solanaRefund = r.solanaRefund →
      (r'.state = .confirming → r.state = .confirming) → r'.Wf := by
    intro hd hp hf hs hc
    constructor <;> simp only [hd, hp, hf, hs] <;> first | assumption | exact hconfirming ∘ hc
  -- a payout that is rewritten keeps its completion
  have rewritten : ∀ p p' : GoldcoinPayout, r.goldcoinPayout = some p →
      r'.goldcoinPayout = some p' → p'.completionSignature = p.completionSignature →
      r'.direction = r.direction → r'.goldcoinRefund = r.goldcoinRefund →
      r'.solanaRefund = r.solanaRefund → (r'.state = .confirming → r.state = .confirming) →
      r'.Wf := by
    intro p p' hp hp' hsignature hd hf hs hc
    rw [hp] at hpayout hcompletion
    constructor <;> simp only [hd, hp', hf, hs]
    · exact fun _ => hpayout rfl
    · simpa [hsignature] using hcompletion
    · exact hrefund
    · exact hsolana
    · exact hconfirming ∘ hc
    · exact hreleased
  have refunded : ∀ f : GoldcoinRefund, r'.goldcoinRefund = some f →
      r.direction.sourceIsGoldcoin → (f.reservationReleased = true → f.state = .refunded) →
      r'.direction = r.direction → r'.goldcoinPayout = r.goldcoinPayout →
      r'.solanaRefund = r.solanaRefund → r'.Wf := by
    intro f hf hsource hrel hd hp hs
    constructor <;> simp only [hd, hp, hf, hs]
    · exact hpayout
    · exact hcompletion
    · exact fun _ => hsource
    · exact hsolana
    · exact fun _ => hsource
    · rintro _ ⟨⟩
      exact hrel
  cases h with
  | observed _ source h₀ h₁ h =>
    have hrows' := (h₀.rows.trans h₁.rows).trans h.rows
    exact hrows'.wf hrows fun _ => by rwa [hrows'.direction]
  | solanaRefundBegun _ source =>
    exact ⟨hpayout, hcompletion, hrefund, fun _ => source, nofun, hreleased⟩
  | solanaRefundBroadcast hf _ =>
    have source := hsolana (by rw [hf]; rfl)
    split_ifs
    · exact ⟨hpayout, hcompletion, hrefund, fun _ => source, nofun, hreleased⟩
    · exact ⟨hpayout, hcompletion, hrefund, fun _ => source, hconfirming, hreleased⟩
  | solanaRefundConfirmed hf =>
    exact ⟨hpayout, hcompletion, hrefund, fun _ => hsolana (by rw [hf]; rfl), nofun, hreleased⟩
  | refundReturned => exact ⟨hpayout, hcompletion, hrefund, nofun, nofun, hreleased⟩
  | goldcoinRefundBegun _ source => exact refunded _ rfl source (by simp) rfl rfl rfl
  | goldcoinRefundSigned hf h =>
    refine refunded _ rfl (hrefund (by rw [hf]; rfl)) (fun hrel => ?_) rfl rfl rfl
    rw [hreleased _ hf hrel] at h
    cases h
  | goldcoinRefundBroadcast _ hf h =>
    refine refunded _ rfl (hrefund (by rw [hf]; rfl)) (fun hrel => ?_) rfl rfl rfl
    rw [hreleased _ hf hrel] at h
    cases h
  | goldcoinRefundConfirmed _ hf =>
    exact refunded _ rfl (hrefund (by rw [hf]; rfl)) (fun _ => rfl) rfl rfl rfl
  | releaseConfirmed => split_ifs <;> exact ⟨hpayout, hcompletion, hrefund, hsolana, nofun, hreleased⟩
  | robinhoodPayoutSettled =>
    split_ifs <;> exact ⟨hpayout, hcompletion, hrefund, hsolana, nofun, hreleased⟩
  | payoutBuilt destination _ _ p _ hp' =>
    exact ⟨fun _ => destination, by simp [hp'], hrefund, hsolana, hconfirming, hreleased⟩
  | payoutSigned hp => exact rewritten _ _ hp rfl rfl rfl rfl rfl nofun
  | payoutBroadcast hp => exact rewritten _ _ hp rfl rfl rfl rfl rfl nofun
  | payoutConfirmations hp => exact rewritten _ _ hp rfl rfl rfl rfl rfl fun h => h
  | payoutConfirmed _ _ hp => exact rewritten _ _ hp rfl rfl rfl rfl rfl nofun
  | completionSubmitted hp h =>
    exact ⟨fun _ => hpayout (by rw [hp]; rfl), fun _ => h, hrefund, hsolana, hconfirming, hreleased⟩
  | completionConfirmed _ route =>
    exact ⟨fun hp => hpayout (by simpa using hp), fun _ => route, hrefund, hsolana, nofun, hreleased⟩
  | robinhoodSettledGoldcoin _ route p hp =>
    exact ⟨fun h => hpayout (hp.1 ▸ h), fun h => hcompletion (hp.2.1 ▸ h), hrefund, hsolana, nofun,
      hreleased⟩
  | confirmations | reviewed | releaseAttested | robinhoodTx => exact same rfl rfl rfl rfl fun h => h
  | _ => exact same rfl rfl rfl rfl nofun

/-- A Goldcoin refund that is under way after a transition: it began, or it was
under way before, in a row that no operation but its own steps and two of
Robinhood can move. -/
theorem openRefund {f' : GoldcoinRefund} (h : Transition op id r r' δ) (hwf : r.Wf)
    (hparked : ∀ f ∈ r.goldcoinRefund, f.state ≠ .refunded → r.state.isParked = true)
    (hf' : r'.goldcoinRefund = some f') (hne' : f'.state ≠ .refunded) :
    (r.state = .manualReview ∧ r'.state = .refundPending ∧ f'.state = .built ∧
        r.direction.sourceIsGoldcoin ∧ r'.manualReviewNote = r.manualReviewNote ∧
        ∃ reason ∈ r.manualReviewNote, reason.isGlcRefundable = true) ∨
      ∃ f, r.goldcoinRefund = some f ∧ f.state ≠ .refunded ∧
        ((r'.manualReviewNote = r.manualReviewNote ∧
            (r'.state = r.state ∧ (f'.state = f.state ∨ f.state = .built ∧ f'.state = .signed) ∨
              f.state = .signed ∧ f'.state = .broadcast ∧ r'.state = .refundBroadcast)) ∨
          (f' = f ∧ r'.state = .manualReview ∧ r.state ≠ .manualReview ∧
            ∃ reason, op = .markRobinhoodRequestManualReview id reason) ∨
          (op = .markRobinhoodPayoutSettled id ∧ r.state ≠ .settled ∧
            r.state ≠ .destinationConfirmed)) := by
  have kept : r'.goldcoinRefund = r.goldcoinRefund → r.goldcoinRefund = some f' := (· ▸ hf')
  -- the row is parked, and of a request out of Goldcoin
  have unparked : r'.goldcoinRefund = r.goldcoinRefund → r.state.isParked = false → False := by
    intro hf hs
    rw [hparked f' (kept hf) hne'] at hs
    cases hs
  have elsewhere : r'.goldcoinRefund = r.goldcoinRefund → ¬ r.direction.sourceIsGoldcoin → False :=
    fun hf hsource => hsource (hwf.refund (by rw [kept hf]; rfl))
  have solana : r.direction.sourceIsSolana → ¬ r.direction.sourceIsGoldcoin := by
    intro hs hg
    rw [Direction.sourceIsGoldcoin, hs] at hg
    cases hg
  have robinhood : r.direction.sourceIsRobinhood → ¬ r.direction.sourceIsGoldcoin := by
    intro hs hg
    rw [Direction.sourceIsGoldcoin, hs] at hg
    cases hg
  have noRefund : r'.goldcoinRefund = r.goldcoinRefund → ¬ r.refundLifecycleExists → False :=
    fun hf hnone => hnone (.inr (.inl (by rw [kept hf]; rfl)))
  have same : r'.goldcoinRefund = r.goldcoinRefund → r'.state = r.state →
      r'.manualReviewNote = r.manualReviewNote → ∃ f, r.goldcoinRefund = some f ∧
        f.state ≠ .refunded ∧ r'.manualReviewNote = r.manualReviewNote ∧ r'.state = r.state ∧
          f'.state = f.state :=
    fun hf hs hm => ⟨f', kept hf, hne', hm, hs, rfl⟩
  cases h with
  | expired h => exact (unparked rfl (by rw [h]; rfl)).elim
  | cancelled h => exact (unparked rfl (by obtain h | h := h <;> rw [h] <;> rfl)).elim
  | lateDeposit h => exact (unparked rfl (by rw [h]; rfl)).elim
  | observed _ _ h₀ h₁ h =>
    refine (unparked ((h₀.rows.trans h₁.rows).trans h.rows).goldcoinRefund ?_).elim
    cases h₀ with
    | awaiting h => rw [h]; rfl
    | readmitted h => rw [h]; rfl
  | finalized h => exact (unparked rfl (by rw [h]; rfl)).elim
  | spentBeforeFinalized h => exact (unparked rfl (by rw [h]; rfl)).elim
  | reorged h => exact (unparked rfl (by obtain h | h := h <;> rw [h] <;> rfl)).elim
  | parkedForBounds h => exact (unparked rfl (by rw [h]; rfl)).elim
  | parkedForContract h => exact (unparked rfl (by rw [h]; rfl)).elim
  | resumed _ source => exact (elsewhere rfl source).elim
  | resumedBounds _ _ _ hnone => exact (noRefund rfl hnone).elim
  | closed _ _ hnone => exact (noRefund rfl hnone).elim
  | solanaRefundBegun _ source => exact (elsewhere rfl (solana source)).elim
  | solanaRefundBroadcast hf =>
    have source := hwf.solanaRefund (by rw [hf]; rfl)
    exact (elsewhere (by split_ifs <;> rfl) (solana source)).elim
  | solanaRefundConfirmed hf =>
    exact (elsewhere rfl (solana (hwf.solanaRefund (by rw [hf]; rfl)))).elim
  | refundReturned _ _ source => exact (elsewhere rfl (solana source)).elim
  | goldcoinRefundBegun h source note =>
    obtain rfl := Option.some.inj hf'
    exact .inl ⟨h, rfl, rfl, source, rfl, note⟩
  | goldcoinRefundSigned hf h =>
    obtain rfl := Option.some.inj hf'
    exact .inr ⟨_, hf, by simp [h], .inl ⟨rfl, .inl ⟨rfl, .inr ⟨h, rfl⟩⟩⟩⟩
  | goldcoinRefundBroadcast _ hf h =>
    obtain rfl := Option.some.inj hf'
    exact .inr ⟨_, hf, by simp [h], .inl ⟨rfl, .inr ⟨h, rfl, rfl⟩⟩⟩
  | goldcoinRefundConfirmed =>
    obtain rfl := Option.some.inj hf'
    exact absurd rfl hne'
  | robinhoodRefundPending _ source => exact (elsewhere rfl (robinhood source)).elim
  | robinhoodRefundConfirmed _ _ source => exact (elsewhere rfl (robinhood source)).elim
  | robinhoodParked hop h =>
    exact .inr ⟨f', kept rfl, hne', .inr (.inl ⟨rfl, rfl, h.2.2, _, hop⟩)⟩
  | releaseSubmitted h => exact (unparked rfl (by rw [h]; rfl)).elim
  | releaseConfirmed h => exact (unparked (by split_ifs <;> rfl) (by rw [h]; rfl)).elim
  | payoutSigned _ _ h => exact (unparked rfl (by rw [h]; rfl)).elim
  | payoutBroadcast _ _ h => exact (unparked rfl (by rw [h]; rfl)).elim
  | payoutConfirmed _ _ hp =>
    refine (elsewhere rfl fun hg => ?_).elim
    have destination := hwf.payout (by rw [hp]; rfl)
    revert hg destination
    cases r.direction <;> simp [Direction.sourceIsGoldcoin, Direction.destinationIsGoldcoin,
      Direction.sourceChain, Direction.destinationChain]
  | completionConfirmed h => exact (unparked rfl (by rw [h]; rfl)).elim
  | robinhoodPayoutSettled hop _ h =>
    have hf : r.goldcoinRefund = some f' := kept (by split_ifs <;> rfl)
    have hs := hparked f' hf hne'
    refine .inr ⟨f', hf, hne', .inr (.inr ⟨hop, ?_, ?_⟩)⟩ <;>
      · intro hstate
        rw [hstate] at hs
        cases hs
  | robinhoodPayoutCompleted h => exact (unparked rfl (by rw [h]; rfl)).elim
  | robinhoodSettled h => exact (unparked rfl (by rw [h]; rfl)).elim
  | robinhoodSettledGoldcoin h => exact (unparked rfl (by rw [h]; rfl)).elim
  | confirmations | reviewed | releaseAttested | payoutBuilt | payoutConfirmations
  | completionSubmitted | robinhoodTx =>
    obtain ⟨f, hf, hne, hm, hs, hstate⟩ := same rfl rfl rfl
    exact .inr ⟨f, hf, hne, .inl ⟨hm, .inl ⟨hs, .inl hstate⟩⟩⟩

end Transition

/-! ## Rows along a run -/

namespace Effect

variable {op : Op} {l l' : Ledger} {id : ℕ} {r : Request}

/-- What holds of every new row and survives every transition holds of every
row. A new row of a Solana deposit is one of a fold, and a transition of a simple
operation one of a row that was there. -/
theorem forall_rows_traced {P : ℕ → Request → Prop} (h : Effect op l l')
    (hnew : ∀ id r δ, Inserted r δ →
      (r.direction.sourceIsSolana → r.sourceObligationIndex.isSome → op.foldsSolana = true) →
        op.recorded = some (r.direction, r.recipient) → P id r)
    (hmove : ∀ id r r' δ, (op.isCompound = false → l.requests.get? id = some r) →
      Transition op id r r' δ → P id r → P id r')
    (hall : ∀ id r, l.requests.get? id = some r → P id r) :
    ∀ id r, l'.requests.get? id = some r → P id r := by
  induction h with
  | idle requests => rwa [requests]
  | configured requests => rwa [requests]
  | inserted h row requests _ _ solana recorded =>
    intro k r' hget
    rw [requests, Store.get?_push] at hget
    split_ifs at hget with hk
    · obtain rfl := Option.some.inj hget
      exact hnew k _ _ h solana recorded
    · exact hall k r' hget
  | moved found h requests =>
    intro k r' hget
    rw [requests, Store.get?_modify] at hget
    split_ifs at hget with hk
    · subst hk
      rw [found] at hget
      obtain rfl := Option.some.inj hget
      exact hmove k _ _ _ (fun _ => found) h (hall k _ found)
    · exact hall k r' hget
  | seq hop _ _ ih₁ ih =>
    -- a compound operation promises nothing about the row
    have hmove' := fun id r r' δ => hmove id r r' δ fun hsimple => by rw [hop] at hsimple; cases hsimple
    exact ih (fun id r r' δ _ => hmove' id r r' δ) (ih₁ hmove hall)

/-- The same, for what holds of a new row whatever inserted it. -/
theorem forall_rows_found {P : ℕ → Request → Prop} (h : Effect op l l')
    (hnew : ∀ id r δ, Inserted r δ → P id r)
    (hmove : ∀ id r r' δ, (op.isCompound = false → l.requests.get? id = some r) →
      Transition op id r r' δ → P id r → P id r')
    (hall : ∀ id r, l.requests.get? id = some r → P id r) :
    ∀ id r, l'.requests.get? id = some r → P id r :=
  h.forall_rows_traced (fun id r δ hi _ _ => hnew id r δ hi) hmove hall

/-- The vault stays unless the operation is one of those that write it. -/
theorem vault_eq (h : Effect op l l') (hop : op.touchesVault = false) : l'.vault = l.vault := by
  induction h with
  | idle _ _ vault => exact vault hop
  | configured _ _ vault => exact vault
  | inserted _ _ _ _ vault => exact vault
  | moved _ _ _ _ vault => exact vault hop
  | seq _ _ _ ih₁ ih => exact ih.trans ih₁

theorem forall_rows {P : ℕ → Request → Prop} (h : Effect op l l')
    (hnew : ∀ id r δ, Inserted r δ → P id r)
    (hmove : ∀ id r r' δ, Transition op id r r' δ → P id r → P id r')
    (hall : ∀ id r, l.requests.get? id = some r → P id r) :
    ∀ id r, l'.requests.get? id = some r → P id r :=
  h.forall_rows_found hnew (fun id r r' δ _ => hmove id r r' δ) hall

/-- No row is ever removed, and a row moves by transitions only. -/
theorem row (h : Effect op l l') (hget : l.requests.get? id = some r) :
    ∃ r', l'.requests.get? id = some r' ∧
      Relation.ReflTransGen (fun a b => ∃ δ, Transition op id a b δ) r r' := by
  induction h generalizing r with
  | idle requests => exact ⟨r, requests ▸ hget, .refl⟩
  | configured requests => exact ⟨r, requests ▸ hget, .refl⟩
  | inserted h row requests =>
    exact ⟨r, requests ▸ Store.get?_push_of_some hget, .refl⟩
  | @moved l l' k r₁ r' δ found h requests =>
    by_cases hk : id = k
    · subst hk
      obtain rfl := Option.some.inj (hget.symm.trans found)
      exact ⟨r', by simp [requests, Store.get?_modify, found], .single ⟨δ, h⟩⟩
    · exact ⟨r, by rw [requests, Store.get?_modify, if_neg hk, hget], .refl⟩
  | seq _ _ _ ih₁ ih =>
    obtain ⟨r₁, hget₁, h₁⟩ := ih₁ hget
    obtain ⟨r', hget', h'⟩ := ih hget₁
    exact ⟨r', hget', h₁.trans h'⟩

end Effect

namespace Ledger

/-- The row invariant, of every row. -/
def Wf (l : Ledger) : Prop := ∀ id r, l.requests.get? id = some r → r.Wf

variable {op : Op} {l l' : Ledger} {ops : List Op}

/-- The effect of a step. -/
theorem effect_of_step (hwf : l.Wf) (h : l.step op = some l') : Effect op l l' := by
  rw [step, toOption_eq_some] at h
  cases op with
  | setting s => exact pure_eq_ok.mp h ▸ applySetting_effect
  | configureReserve d balance minimum => exact pure_eq_ok.mp h ▸ configureReserve_effect
  | refreshReserveBalance d observed =>
    exact pure_eq_ok.mp h ▸
      .idle rfl (fun _ => books_updateReserve_of_eq fun _ => ⟨rfl, rfl⟩) fun _ => rfl
  | confirmRebalance d delta =>
    exact pure_eq_ok.mp h ▸
      .idle rfl (fun _ => books_updateReserve_of_eq fun _ => ⟨rfl, rfl⟩) fun _ => rfl
  | evaluateLiquidityGate d =>
    exact pure_eq_ok.mp h ▸ .idle rfl (fun _ => books_evaluateLiquidityGate) fun _ => rfl
  | createRequest d a recipient requester wallet ttl now => exact createRequestFrom_effect h
  | foldSolDeposit index a requester recipient refusal now => exact foldSolDeposit_effect h
  | foldSolDepositToRobinhood index a requester evm raw routeOpen refusal now =>
    exact foldSolDepositToRobinhood_effect h
  | foldRobinhoodDeposit obs a destination routeOpen refusal now =>
    exact foldRobinhoodDeposit_effect h
  | expireReservations now => exact pure_eq_ok.mp h ▸ expireReservations_effect rfl
  | cancelRequest id note => exact cancelRequest_effect h
  | recordGlcDepositObserved id dep lock now =>
    obtain ⟨⟨outcome, l₁⟩, hobserved, rfl⟩ := map_eq_ok.mp h
    exact recordGlcDepositObserved_effect hobserved
  | updateGlcConfirmations id c => exact updateGlcConfirmations_effect h
  | markGlcSourceFinalized id now => exact markGlcSourceFinalized_effect h
  | markGlcDepositSpentBeforeFinalized id => exact markGlcDepositSpentBeforeFinalized_effect h
  | markGlcReorged id => exact markGlcReorged_effect rfl h
  | goldcoinRollbackReorg height => exact pure_eq_ok.mp h ▸ goldcoinRollbackReorg_effect rfl rfl
  | parkForDestinationBounds id => exact parkForDestinationBounds_effect h
  | parkForForeignContract id => exact parkForForeignContract_effect h
  | setManualReviewHold id reviewAfter note => exact setManualReviewHold_effect h
  | clearManualReviewHold id => exact clearManualReviewHold_effect h
  | recordOperatorDecision id decision note emergency now =>
    exact recordOperatorDecision_effect ⟨rfl, rfl, rfl, rfl⟩ h
  | resumeManualReview expected id now => exact resumeManualReview_effect rfl h
  | processHeldManualReview id note now =>
    exact processHeldManualReview_effect rfl rfl ⟨rfl, rfl, rfl, rfl⟩ h
  | resumeGlcToSolDestinationBound id live => exact resumeGlcToSolDestinationBound_effect rfl h
  | closeManualReview id disposition reference note now => exact closeManualReview_effect h
  | beginSolanaRefund id verified note => exact beginSolanaRefund_effect h
  | recordSolanaRefundBroadcast id => exact recordSolanaRefundBroadcast_effect h
  | markSolanaRefundConfirmed id => exact markSolanaRefundConfirmed_effect h
  | returnRefundToManualReview id nothingLanded note => exact returnRefundToManualReview_effect h
  | beginGoldcoinRefund id amount inputs note => exact beginGoldcoinRefund_effect h
  | recordGoldcoinRefundSigned id => exact recordGoldcoinRefundSigned_effect h
  | recordGoldcoinRefundBroadcast id txid => exact recordGoldcoinRefundBroadcast_effect h
  | recordGoldcoinRefundConfirmed id => exact recordGoldcoinRefundConfirmed_effect h
  | reconcileGoldcoinRefundConfirmations id c q => exact reconcileGoldcoinRefundConfirmations_effect h
  | markRobinhoodRefundPending id => exact markRobinhoodRefundPending_effect h
  | markRobinhoodRefundConfirmed id => exact markRobinhoodRefundConfirmed_effect h
  | markRobinhoodRequestManualReview id reason => exact markRobinhoodRequestManualReview_effect h
  | recordReleaseSubmitted id signature => exact recordReleaseSubmitted_effect h
  | recordReleaseAttestation id => exact recordReleaseAttestation_effect h
  | markReleaseConfirmed id => exact releaseConfirmed_effect h
  | reconcileReleaseFromChain id => exact reconcileReleaseFromChain_effect h
  | reserveVaultUtxos id selected depth => exact reserveVaultUtxos_effect h
  | buildPayout id plan depth => exact buildPayout_effect h
  | recordGoldcoinPayoutSigned id => exact recordGoldcoinPayoutSigned_effect h
  | recordGoldcoinPayoutBroadcast id txid => exact recordGoldcoinPayoutBroadcast_effect h
  | updateGoldcoinPayoutConfirmations id c depth => exact updateGoldcoinPayoutConfirmations_effect h
  | submitGoldcoinCompletion id signature => exact submitGoldcoinCompletion_effect h
  | markGoldcoinCompletionConfirmed id =>
    -- the row has a completion, so it is of the one route that has them
    exact goldcoinCompletionConfirmed_effect rfl
      (fun r hget hsome => (hwf id r hget).completion (hsome rfl)) h
  | applyCompletionLanded id => exact applyCompletionLanded_effect h
  | beginRobinhoodTx kind id digest => exact beginRobinhoodTx_effect h
  | recordRobinhoodAuthorization kind id signatures => exact recordRobinhoodAuthorization_effect h
  | recordRobinhoodSigned kind id raw => exact recordRobinhoodSigned_effect h
  | recordRobinhoodBroadcast kind id => exact recordRobinhoodBroadcast_effect h
  | recordRobinhoodReceipt kind id success block => exact recordRobinhoodReceipt_effect h
  | updateRobinhoodConfirmations kind id c q now => exact updateRobinhoodConfirmations_effect h
  | markRobinhoodTxManualReview kind id => exact markRobinhoodTxManualReview_effect h
  | markRobinhoodPayoutSettled id => exact markRobinhoodPayoutSettled_effect h
  | recordRobinhoodPayoutCompletionSubmitted id signature =>
    exact recordRobinhoodPayoutCompletionSubmitted_effect h
  | markRobinhoodPayoutCompletionConfirmed id =>
    exact markRobinhoodPayoutCompletionConfirmed_effect h
  | markRobinhoodSettlementConfirmed id => exact robinhoodSettleConfirmed_effect h
  | reconcileRobinhoodSettlementFromChain id block now =>
    exact reconcileRobinhoodSettlementFromChain_effect rfl h
  | syncVaultUtxos observed minConfirmations => exact onVault_effect rfl h
  | setZeroConfHold txid hold => exact onVault_effect rfl h
  | recordSplitBuilt source amount fee count => exact onVault_effect rfl h
  | recordSplitSigned id => exact onVault_effect rfl h
  | recordSplitBroadcast id txid amounts => exact onVault_effect rfl h
  | recordSplitConfirmed id => exact onVault_effect rfl h
  | abandonSplit id txid => exact onVault_effect rfl h
  | readoptSplit id => exact onVault_effect rfl h
  | setSplitMissingInputs id now => exact onVault_effect rfl h
  | clearSplitMissingInputs id => exact onVault_effect rfl h

theorem Wf.step (hwf : l.Wf) (h : l.step op = some l') : l'.Wf :=
  (effect_of_step hwf h).forall_rows (P := fun _ r => r.Wf) (fun _ _ _ hi => hi.wf)
    (fun _ _ _ _ ht => ht.wf) hwf

theorem wf_empty : empty.Wf := fun id r h => by
  have hnone : empty.requests.get? id = none := rfl
  rw [hnone] at h
  cases h

/-- The row invariant holds in every state a run reaches. -/
theorem wf_after : (after ops).Wf :=
  Run.invariant (fun _ _ _ hwf h => Wf.step hwf h) wf_empty ops

end Ledger

end Service
