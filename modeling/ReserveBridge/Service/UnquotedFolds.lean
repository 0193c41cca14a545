-- SUMMARY: Solana deposits that are folded while the price book refuses to quote: what their rows keep, the one reason that lets one be resumed all the same, and runs in which none is.
import ReserveBridge.Service.Holds
import ReserveBridge.Service.SolanaFolds

/-!
# Folds without a quote

Where the book refuses, a deposit is priced at one to one, stored without a quote
and parked. What tells it from a row that never had a quote is the reason it was
parked for, and the reason of a rapid burst outranks that of the refusal.
-/

namespace Service
open Guard

/-- The request of a Solana deposit that was folded without a quote. -/
def Request.Unquoted (r : Request) : Prop :=
  r.direction.sourceIsSolana ∧ r.sourceObligationIndex.isSome ∧ r.quoted = false

/-- Nothing was settled of it, and no reason but a rapid burst lets it be resumed. -/
structure Request.Unsettled (r : Request) : Prop where
  unadvanced : r.Unadvanced
  late : r.isEarly = false
  note : ∀ reason ∈ r.manualReviewNote, reason.isRecoverable = true → reason = .rapidBurstHold

namespace Transition

variable {op : Op} {id : ℕ} {r r' : Request} {δ : ℤ × ℤ}

/-- Only a Goldcoin deposit is quoted after its request was made. -/
theorem quoted_eq (h : Transition op id r r' δ) (hsource : r.direction.sourceIsSolana) :
    r'.quoted = r.quoted := by
  cases h with
  | observed hop source h₀ h₁ h =>
    rw [Direction.sourceIsGoldcoin, hsource] at source
    cases source
  | solanaRefundBroadcast | releaseConfirmed | robinhoodPayoutSettled => split_ifs <;> rfl
  | _ => rfl

theorem unquoted (h : Transition op id r r' δ) (hr' : r'.Unquoted) : r.Unquoted := by
  have hsource : r.direction.sourceIsSolana := h.direction_eq ▸ hr'.1
  have hsame := h.sameDeposit hsource
  exact ⟨hsource, hsame.index ▸ hr'.2.1, (h.quoted_eq hsource).symm.trans hr'.2.2⟩

/-- A late row keeps the reason it was parked for, or gets one that does not let it be
resumed, unless it is resumed. -/
theorem note_cases (h : Transition op id r r' δ) (hlate : r.isEarly = false)
    (hsource : r.direction.sourceIsSolana) (hok : r.Called id op) :
    r'.manualReviewNote = r.manualReviewNote ∨
      (∃ reason, r'.manualReviewNote = some reason ∧ reason.isRecoverable = false) ∨
      r'.state = .sourceFinalized := by
  have early {s : RequestState} (h : r.state = s)
      (hs : Request.isEarly { r with state := s } = true) : False := by
    rw [← h] at hs
    rw [hs] at hlate
    cases hlate
  cases h with
  | cancelled h => rcases h with h | h <;> exact (early h rfl).elim
  | lateDeposit h => exact (early h rfl).elim
  | observed _ source =>
    rw [Direction.sourceIsGoldcoin, hsource] at source
    cases source
  | finalized h => exact (early h rfl).elim
  | spentBeforeFinalized h => exact (early h rfl).elim
  | reorged h => rcases h with h | h <;> exact (early h rfl).elim
  | parkedForBounds | parkedForContract => exact .inr (.inl ⟨_, rfl, rfl⟩)
  | resumed | resumedBounds => exact .inr (.inr rfl)
  | robinhoodParked hop =>
    subst hop
    obtain ⟨kind, rfl⟩ := hok rfl
    exact .inr (.inl ⟨_, rfl, rfl⟩)
  | solanaRefundBroadcast | releaseConfirmed | robinhoodPayoutSettled =>
    left
    split_ifs <;> rfl
  | _ => exact .inl rfl

/-- A row that is not resumed out of a burst stays unsettled, and does not come to be
held for one. -/
theorem unsettled (h : Transition op id r r' δ) (hr : r.Unsettled)
    (hsource : r.direction.sourceIsSolana) (hok : r.Called id op)
    (hspared : op.Readmits id → r.manualReviewNote ≠ some .rapidBurstHold) :
    r'.Unsettled ∧ (r'.manualReviewNote = some .rapidBurstHold →
      r.manualReviewNote = some .rapidBurstHold) := by
  have hunadvanced : r'.Unadvanced := by
    rcases h.unadvanced hr.unadvanced hok with hunadvanced | ⟨-, hadvances⟩
    · exact hunadvanced
    · exfalso
      cases hadvances with
      | finalized h =>
        have hlate := hr.late
        rw [Request.isEarly, h] at hlate
        cases hlate
      | resumed _ hop _ hnote =>
        rcases hnote with ⟨reason, hreason, hrecoverable⟩ | hgoldcoin
        · rw [hr.note reason hreason hrecoverable] at hreason
          exact hspared hop hreason
        · rw [Direction.sourceIsGoldcoin, hsource] at hgoldcoin
          cases hgoldcoin
  have hlate : r'.isEarly = false := by
    rw [Bool.eq_false_iff]
    intro hearly
    have hlate := hr.late
    rw [h.early hearly] at hlate
    cases hlate
  rcases h.note_cases hr.late hsource hok with hsame | ⟨reason, hreason, hlost⟩ | hfinal
  · rw [hsame]
    exact ⟨⟨hunadvanced, hlate, hsame ▸ hr.note⟩, fun hburst => hburst⟩
  · refine ⟨⟨hunadvanced, hlate, fun other hother hrecoverable => ?_⟩, fun hburst => ?_⟩
    · obtain rfl := Option.some.inj (hreason.symm.trans hother)
      rw [hlost] at hrecoverable
      cases hrecoverable
    · obtain rfl := Option.some.inj (hreason.symm.trans hburst)
      cases hlost
  · have hstate := hunadvanced.state
    rw [hfinal] at hstate
    cases hstate

end Transition

/-! ## Operations -/

/-- The operation resumes no row that is unquoted and parked as a rapid burst. -/
def Ledger.Spares (l : Ledger) (op : Op) : Prop :=
  ∀ id r, l.requests.get? id = some r → r.Unquoted → op.Readmits id →
    r.manualReviewNote ≠ some .rapidBurstHold

/-- Nothing was settled of what was folded without a quote. -/
def Ledger.Unsettled (l : Ledger) : Prop :=
  ∀ id r, l.requests.get? id = some r → r.Unquoted → r.Unsettled

namespace Ledger

variable {op : Op} {l l' : Ledger} {i : ℕ}

/-- An operation that is no fold of the indexer. -/
theorem Unsettled.step (hl : l.Unsettled) (hwf : l.Wf) (hop : op.foldsSolana = false)
    (hok : l.Called op) (hspares : l.Spares op) (h : l.step op = some l') : l'.Unsettled := by
  -- a compound operation spares the row it moves for the second time, too
  have hall : ∀ id r, l'.requests.get? id = some r → r.Unquoted →
      r.Unsettled ∧ (op.Readmits id → r.manualReviewNote ≠ some .rapidBurstHold) := by
    refine (effect_of_step hwf h).forall_rows_traced (fun id r δ _ hsolana _ hr => ?_)
      (fun id r r' δ hfound ht hr hr' => ?_) fun id r hget hr => ⟨hl id r hget hr, hspares id r hget hr⟩
    · have hfolds := hsolana hr.1 hr.2.1
      rw [hop] at hfolds
      cases hfolds
    · have hunquoted := ht.unquoted hr'
      obtain ⟨hunsettled, hspared⟩ := hr hunquoted
      have hcalled : r.Called id op := by
        cases hcompound : op.isCompound with
        | true => exact Request.called_of_isCompound hcompound
        | false => exact hok id r (hfound hcompound)
      obtain ⟨hunsettled', hnote⟩ := ht.unsettled hunsettled hunquoted.1 hcalled hspared
      exact ⟨hunsettled', fun hop hburst => hspared hop (hnote hburst)⟩
  exact fun id r hget hr => (hall id r hget hr).1

/-! ## Folds -/

/-- A deposit that is refused is parked, for a burst or for the refusal. -/
theorem foldDeposit_refused {d : Direction} {a : RequestAmounts} {quoted : Bool}
    {src : DepositSource} {destination : Option Bytes} {recipient : Bytes} {routeOpen : Bool}
    {refusal : FoldRefusal} {now : ℤ} (hlost : refusal.reason.isRecoverable = false)
    (h : l.foldDeposit d a quoted src destination recipient routeOpen (some refusal) now = .ok l') :
    ∃ r, l'.requests = l.requests.push r ∧ r.quoted = quoted ∧ r.Unsettled := by
  have hnote (burst : Bool) (blocker : Option ParkReason) :
      foldNote burst (some refusal) destination routeOpen blocker =
        some (if burst then .rapidBurstHold else refusal.reason) := by
    cases burst <;> rfl
  simp only [foldDeposit, bind_eq_ok, reserve_eq_ok, require_eq_ok, exists_unit, pure_eq_ok,
    hnote, Option.isNone_some, Bool.false_eq_true, if_false] at h
  generalize (l.evaluateLiquidityGate d.destinationReserve).rapidBurstVerdict d (some src.wallet)
    destination a.gross now .newRequest = burst at h
  obtain ⟨v, -, -, -, -, rfl⟩ := h
  cases burst with
  | true =>
    refine ⟨_, rfl, rfl, ⟨rfl, ?_, rfl, fun _ hp => (by cases hp), rfl⟩, rfl, ?_⟩
    · intro e he
      rcases List.mem_cons.mp he with rfl | he
      · rfl
      · obtain rfl := List.mem_singleton.mp he
        rfl
    · rintro reason ⟨⟩ -
      rfl
  | false =>
    refine ⟨_, rfl, rfl, ⟨rfl, ?_, rfl, fun _ hp => (by cases hp), rfl⟩, rfl, ?_⟩
    · intro e he
      obtain rfl := List.mem_singleton.mp he
      rfl
    · rintro reason ⟨⟩ hrecoverable
      exact (Bool.false_ne_true (hlost.symm.trans hrecoverable)).elim

/-- The rows of a ledger in which what was added is unsettled unless it is quoted. -/
theorem Unsettled.push {r : Request} (hl : l.Unsettled) (hrows : l'.requests = l.requests.push r)
    (hr : r.quoted = false → r.Unsettled) : l'.Unsettled := by
  intro id r' hget hunquoted
  rw [hrows, Store.get?_push] at hget
  split_ifs at hget with hid
  · obtain rfl := Option.some.inj hget
    exact hr hunquoted.2.2
  · exact hl id r' hget hunquoted

/-- It is refused, for a reason that lets nothing be resumed. -/
def Lost (refusal : Option FoldRefusal) : Prop :=
  ∃ reason ∈ refusal, reason.reason.isRecoverable = false

/-- What a fold of a price stores: the row is quoted with the price, and a price without
a quote is refused for a reason that lets nothing be resumed. -/
theorem Unsettled.foldDeposit {d : Direction} {a : RequestAmounts} {quoted : Bool}
    {src : DepositSource} {destination : Option Bytes} {recipient : Bytes} {routeOpen : Bool}
    {refusal : Option FoldRefusal} {now : ℤ} (hl : l.Unsettled)
    (hlost : quoted = false → Lost refusal)
    (h : l.foldDeposit d a quoted src destination recipient routeOpen refusal now = .ok l') :
    l'.Unsettled := by
  cases quoted with
  | true =>
    obtain ⟨r, v, -, -, -, -, -, hquoted, -, -, -, -, -, -, hrow⟩ := foldDeposit_cases h
    have hr : r.quoted = false → r.Unsettled := fun hunquoted =>
      (Bool.false_ne_true (hunquoted.symm.trans hquoted)).elim
    obtain ⟨-, -, -, rfl⟩ | ⟨-, -, rfl⟩ := hrow
    · exact hl.push rfl hr
    · exact hl.push rfl hr
  | false =>
    obtain ⟨reason, rfl, hreason⟩ := hlost rfl
    obtain ⟨r, hrows, -, hr⟩ := foldDeposit_refused hreason h
    exact hl.push hrows fun _ => hr

theorem quoteColumns_eq_isSome {a : RequestAmounts} {quoted : Bool}
    (h : a.quoteColumns = .ok quoted) : quoted = a.quote.isSome := by
  unfold RequestAmounts.quoteColumns at h
  split at h
  · rename_i hquote
    rw [hquote]
    exact (Except.ok.inj h).symm
  · rename_i q hquote
    split_ifs at h
    rw [hquote]
    exact (Except.ok.inj h).symm

end Ledger

namespace SolanaTick

variable {t : SolanaTick} {book : RateBook} {l l' : Ledger}

/-- A price without a quote is one of a refusal. -/
theorem lost_of_unquoted {route : Direction} {gross : U64} {feeBps : ℕ} {now : ℤ} {scale : ℕ}
    {pricing : FoldPricing} (h : priceFinalDeposit book route gross feeBps now scale = .ok pricing)
    (hquote : pricing.quote = none) : Ledger.Lost pricing.park := by
  unfold priceFinalDeposit at h
  split at h
  · obtain rfl := Except.ok.inj h
    cases hquote
  · rename_i refusal _
    obtain ⟨breakdown, -, h⟩ := bind_eq_ok.mp h
    obtain rfl := pure_eq_ok.mp h
    refine ⟨.rate refusal, rfl, ?_⟩
    cases refusal <;> rfl
  · cases h

theorem lost_orElse {first rest : Option FoldRefusal}
    (hfirst : ∀ reason ∈ first, reason.reason.isRecoverable = false) (hrest : Ledger.Lost rest) :
    Ledger.Lost (first <|> rest) := by
  cases first with
  | none => exact hrest
  | some reason => exact ⟨reason, rfl, hfirst reason rfl⟩

theorem belowSourceMinimum_lost {route : Direction} {gross minimum : U64} :
    ∀ reason ∈ belowSourceMinimum route gross minimum, reason.reason.isRecoverable = false := by
  intro reason hreason
  unfold belowSourceMinimum at hreason
  split_ifs at hreason
  · obtain rfl := Option.some.inj hreason
    rfl
  · cases hreason

theorem aboveSourceMaximum_lost {route : Direction} {gross : U64} :
    ∀ reason ∈ aboveSourceMaximum route gross, reason.reason.isRecoverable = false := by
  intro reason hreason
  unfold aboveSourceMaximum at hreason
  split_ifs at hreason
  · obtain rfl := Option.some.inj hreason
    rfl
  · cases hreason

theorem quote_eq_none {pricing : FoldPricing} {gross : U64} {quoted : Bool}
    (hquoted : (pricing.amounts gross).quoteColumns = .ok quoted) (hunquoted : quoted = false) :
    pricing.quote = none := by
  have hsome := Ledger.quoteColumns_eq_isSome hquoted
  rw [hunquoted, FoldPricing.amounts, Option.isSome_map] at hsome
  exact Option.isSome_eq_false_iff.mp hsome.symm |> Option.isNone_iff_eq_none.mp

theorem foldToGoldcoin_unsettled {index : ℕ} {snap : SolanaAccounts.WithdrawalObligationSnapshot}
    (hl : l.Unsettled) (h : t.foldToGoldcoin book l index snap = .ok l') : l'.Unsettled := by
  simp only [foldToGoldcoin, Ledger.foldSolDeposit, bind_eq_ok, mapError_eq_ok] at h
  obtain ⟨gross, -, pricing, hpricing, quoted, hquoted, h⟩ := h
  split_ifs at h with hfolded
  · obtain rfl := pure_eq_ok.mp h
    exact hl
  · refine hl.foldDeposit (fun hunquoted => ?_) h
    have hlost := lost_of_unquoted hpricing (quote_eq_none hquoted hunquoted)
    exact lost_orElse belowSourceMinimum_lost (lost_orElse aboveSourceMaximum_lost hlost)

theorem foldToRobinhood_unsettled {feeBps : ℕ}
    {snap : SolanaAccounts.WithdrawalObligationSnapshot} (hl : l.Unsettled)
    (h : t.foldToRobinhood feeBps book l snap = .ok l') : l'.Unsettled := by
  simp only [foldToRobinhood, Ledger.foldSolDepositToRobinhood, bind_eq_ok, mapError_eq_ok,
    require_eq_ok, exists_unit] at h
  obtain ⟨gross, -, pricing, hpricing, -, -, quoted, hquoted, h⟩ := h
  split_ifs at h with hfolded
  · obtain rfl := pure_eq_ok.mp h
    exact hl
  · refine hl.foldDeposit (fun hunquoted => ?_) h
    have hquote := quote_eq_none hquoted hunquoted
    have hlost := lost_of_unquoted hpricing hquote
    split
    · exact ⟨_, rfl, rfl⟩
    · have hbound : t.overDestinationBound pricing gross = none := by
        unfold overDestinationBound
        rw [hquote]
        cases t.destinationMax <;> rfl
      rw [hbound]
      exact lost_orElse belowSourceMinimum_lost (lost_orElse aboveSourceMaximum_lost hlost)

/-- A fold of the indexer. -/
theorem foldObligation_unsettled {index : ℕ} {snap : SolanaAccounts.WithdrawalObligationSnapshot}
    (hl : l.Unsettled) (h : t.foldObligation book l index snap = .ok l') : l'.Unsettled := by
  unfold foldObligation at h
  split at h
  · split_ifs at h
    · exact foldToRobinhood_unsettled hl h
    · exact foldToGoldcoin_unsettled hl h
  · exact foldToGoldcoin_unsettled hl h

/-- The book quotes nothing. -/
def Refuses (book : RateBook) : Prop :=
  ∀ route gross feeBps now scale, ∃ refusal,
    book route gross feeBps now scale = .error (.refused refusal)

theorem Refuses.quote {route : Direction} {gross : U64} {feeBps : ℕ} {now : ℤ} {scale : ℕ}
    {pricing : FoldPricing} (hbook : Refuses book)
    (h : priceFinalDeposit book route gross feeBps now scale = .ok pricing) :
    pricing.quote = none := by
  obtain ⟨refusal, hrefused⟩ := hbook route gross feeBps now scale
  simp only [priceFinalDeposit, hrefused] at h
  obtain ⟨breakdown, -, h⟩ := bind_eq_ok.mp h
  obtain rfl := pure_eq_ok.mp h
  rfl

/-- What a fold stores of such a price. -/
theorem foldDeposit_unquoted {d : Direction} {pricing : FoldPricing} {gross : U64} {quoted : Bool}
    {src : Ledger.DepositSource} {destination : Option Bytes} {recipient : Bytes} {routeOpen : Bool}
    {refusal : Option FoldRefusal} {now : ℤ} (hd : d.sourceIsSolana)
    (hquote : pricing.quote = none) (hquoted : (pricing.amounts gross).quoteColumns = .ok quoted)
    (h : l.foldDeposit d (pricing.amounts gross) quoted src destination recipient routeOpen refusal
      now = .ok l') :
    ∃ r, l'.requests = l.requests.push r ∧ r.Unquoted := by
  obtain ⟨r, v, -, hdirection, -, -, -, hstored, -, -, -, -, hindex, -, hrow⟩ :=
    Ledger.foldDeposit_cases h
  have hunquoted : quoted = false := by
    rw [Ledger.quoteColumns_eq_isSome hquoted, FoldPricing.amounts, hquote]
    rfl
  have hr : r.Unquoted :=
    ⟨hdirection ▸ hd, by rw [hindex]; rfl, hstored.trans hunquoted⟩
  obtain ⟨-, -, -, rfl⟩ | ⟨-, -, rfl⟩ := hrow
  · exact ⟨r, rfl, hr⟩
  · exact ⟨r, rfl, hr⟩

/-- A deposit that is folded while the book quotes nothing is stored as one without a
quote. -/
theorem foldObligation_stores_unquoted {index : ℕ}
    {snap : SolanaAccounts.WithdrawalObligationSnapshot} (hbook : Refuses book)
    (h : t.foldObligation book l index snap = .ok l') :
    l' = l ∨ ∃ r, l'.requests = l.requests.push r ∧ r.Unquoted := by
  have goldcoin (h : t.foldToGoldcoin book l index snap = .ok l') :
      l' = l ∨ ∃ r, l'.requests = l.requests.push r ∧ r.Unquoted := by
    simp only [foldToGoldcoin, Ledger.foldSolDeposit, bind_eq_ok, mapError_eq_ok] at h
    obtain ⟨gross, -, pricing, hpricing, quoted, hquoted, h⟩ := h
    split_ifs at h with hfolded
    · exact .inl (pure_eq_ok.mp h).symm
    · exact .inr (foldDeposit_unquoted (d := .solToGlc) rfl (hbook.quote hpricing) hquoted h)
  unfold foldObligation at h
  split at h
  · split_ifs at h
    · simp only [foldToRobinhood, Ledger.foldSolDepositToRobinhood, bind_eq_ok, mapError_eq_ok,
        require_eq_ok, exists_unit] at h
      obtain ⟨gross, -, pricing, hpricing, -, -, quoted, hquoted, h⟩ := h
      split_ifs at h with hfolded
      · exact .inl (pure_eq_ok.mp h).symm
      · exact .inr (foldDeposit_unquoted (d := .solToRhn) rfl (hbook.quote hpricing) hquoted h)
    · exact goldcoin h
  · exact goldcoin h

end SolanaTick

/-! ## Runs -/

/-- The callers of an operation looked at what it is for. -/
def SolanaIndexerOp.Called (s : SolanaIndexer) : SolanaIndexerOp → Prop
  | .ledger op => s.ledger.Called op
  | _ => True

/-- The condition on a step: it resumes no deposit that was folded without a quote and
parked as a rapid burst. -/
def SolanaIndexerOp.Spares (s : SolanaIndexer) : SolanaIndexerOp → Prop
  | .ledger op => s.ledger.Spares op
  | _ => True

namespace SolanaIndexer

variable {s s' : SolanaIndexer} {op : SolanaIndexerOp}

theorem step_unsettled (hwf : s.ledger.Wf) (hl : s.ledger.Unsettled) (hok : op.Called s)
    (hspares : op.Spares s) (h : s.step op = some s') : s'.ledger.Unsettled := by
  cases op with
  | beginTick config reads =>
    simp only [SolanaIndexer.step] at h
    split at h
    · cases h
    rw [ledger_beginTick (toOption_eq_some.mp h)]
    exact hl
  | foldNext book =>
    simp only [SolanaIndexer.step] at h
    split at h
    · cases h
    split at h
    · cases h
    split at h
    · rename_i l' hfold
      obtain rfl := Option.some.inj h
      exact SolanaTick.foldObligation_unsettled hl hfold
    · obtain rfl := Option.some.inj h
      exact hl
  | finishTick =>
    simp only [SolanaIndexer.step] at h
    split at h
    · cases h
    split_ifs at h
    obtain rfl := Option.some.inj h
    exact hl
  | crash =>
    obtain rfl := Option.some.inj h
    exact hl
  | ledger op =>
    simp only [SolanaIndexer.step] at h
    split_ifs at h with hop
    obtain ⟨l', hl', rfl⟩ := Option.map_eq_some_iff.mp h
    exact hl.step hwf (by simpa using hop) hok hspares hl'

/-- Nothing that was folded without a quote goes toward its settlement. -/
def SettlesNoUnquoted (s : SolanaIndexer) : Prop :=
  ∀ id r, s.ledger.requests.get? id = some r → r.Unquoted → r.Unadvanced

/-- In every run that resumes nothing folded without a quote out of a rapid burst, no
deposit that was folded without a quote goes toward its settlement, whatever else is
decided about it. -/
theorem unquoted_never_settled (ops : List SolanaIndexerOp)
    (hok : ∀ e ∈ Run.history step start ops, e.2.Called e.1)
    (hspares : ∀ e ∈ Run.history step start ops, e.2.Spares e.1) :
    (after ops).SettlesNoUnquoted := by
  have hstart : start.ledger.Wf ∧ start.ledger.Unsettled :=
    ⟨Ledger.wf_empty, fun id r hget => (by cases hget)⟩
  have hstep : ∀ (s : SolanaIndexer) (op : SolanaIndexerOp) (s' : SolanaIndexer),
      s.ledger.Wf ∧ s.ledger.Unsettled → op.Called s ∧ op.Spares s → s.step op = some s' →
        s'.ledger.Wf ∧ s'.ledger.Unsettled := by
    rintro s op s' ⟨hwf, hl⟩ ⟨hok, hspares⟩ h
    exact ⟨(kept_of_step hwf h).1, step_unsettled hwf hl hok hspares h⟩
  have hinv := Run.invariant_of_history hstep hstart ops fun e he => ⟨hok e he, hspares e he⟩
  intro id r hget hunquoted
  exact (hinv.2 id r hget hunquoted).unadvanced

/-! ### A burst while the feed is stale -/

/-- Two deposits of one wallet, folded while the feed is stale. The second is the burst. -/
def staleRun : List SolanaIndexerOp :=
  let book : RateBook := fun _ _ _ _ _ => .error (.refused .feedStale)
  [.ledger (.configureReserve .goldcoinReserve (10 ^ 10) 0),
    .ledger (.configureReserve .solanaReserve (10 ^ 10) 0),
    .ledger (.setting (.rapidBurst (some Ledger.samplePolicy))),
    .beginTick (sampleConfig none) (sampleReads true), .foldNext book, .foldNext book, .finishTick]

/-- Both are parked, and the first is refunded. -/
def refundedRun : List SolanaIndexerOp :=
  staleRun ++ [.ledger (.beginSolanaRefund 1
    { obligationIndex := 0, requester := List.replicate 32 5, grossCanonical := 100000000,
      amountSolana := 1000000 } "note")]

theorem unquoted_never_settled_sample :
    (after refundedRun).ledger.requests.entries.map (fun e => (e.2.quoted, e.2.state)) =
        [(false, .refundPending), (false, .manualReview)] ∧
      (after refundedRun).SettlesNoUnquoted := by
  refine ⟨by decide +kernel, unquoted_never_settled refundedRun (fun e he => ?_) fun e he => ?_⟩
  · have hmem := Run.history_sublist.subset (List.mem_map_of_mem (f := Prod.snd) he)
    simp only [refundedRun, staleRun, List.mem_append, List.mem_cons, List.not_mem_nil,
      or_false] at hmem
    rcases hmem with (h | h | h | h | h | h | h) | h <;> rw [h] <;>
      first | trivial | exact fun _ _ _ => trivial
  · have hmem := Run.history_sublist.subset (List.mem_map_of_mem (f := Prod.snd) he)
    simp only [refundedRun, staleRun, List.mem_append, List.mem_cons, List.not_mem_nil,
      or_false] at hmem
    rcases hmem with (h | h | h | h | h | h | h) | h <;> rw [h] <;>
      first | trivial | exact fun _ _ _ _ hreadmits => hreadmits.elim

/-- A day later the burst is processed, and is on its way to a payout at one to one. -/
theorem burst_settled : ¬ (after (staleRun ++
    [.ledger (.processHeldManualReview 2 "note" 100000)])).SettlesNoUnquoted := by
  have hrow : ((after (staleRun ++ [.ledger (.processHeldManualReview 2 "note" 100000)])).ledger
      |>.requests.get? 2).map (fun r => (r.direction, r.sourceObligationIndex, r.quoted, r.state,
        r.gross, r.netAmount)) =
      some (.solToGlc, some 1, false, .sourceFinalized, 100000000, 97000000) := by decide +kernel
  obtain ⟨r, hget, hcolumns⟩ := Option.map_eq_some_iff.mp hrow
  simp only [Prod.mk.injEq] at hcolumns
  obtain ⟨hdirection, hindex, hquoted, hstate, -⟩ := hcolumns
  intro hsettles
  have hunadvanced := (hsettles 2 r hget ⟨by rw [hdirection]; rfl, by rw [hindex]; rfl, hquoted⟩).state
  rw [hstate] at hunadvanced
  cases hunadvanced

end SolanaIndexer

end Service
