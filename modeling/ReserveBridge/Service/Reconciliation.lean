-- SUMMARY: The reconciliation tick of a reserve, with the allowance for settlements in flight, and when an outflow is explained once and an unauthorized drop is a breach.
import ReserveBridge.Service.Ledger.Step
import ReserveBridge.Lib.Run

/-!
# Reconciliation

`reconcile` of `service/src/reconciliation/mod.rs`. A tick compares the balance
it observes with the book, takes what is in flight off the drop, and then sets
the book to the balance. The allowance is read from rows that stay in flight
from tick to tick, and the debit of a settlement comes on top of a book that
was already set. So what explains each outflow once is that rows in flight and
debits are covered by what left since the tick before.
-/

namespace Service
open Guard

/-- `u64::saturating_add`. -/
def saturatingAdd (a b : ℕ) : ℕ := min (a + b) (2 ^ 64 - 1)

/-! ## What is in flight -/

/-- A request of `rebalance_requests` that withdraws from Robinhood, with the
operation that carries it out. -/
structure TreasuryWithdraw where
  state : RobinhoodTxState
  finalizedAt : Option ℤ
  amount : ℤ
  /-- The rebalance request is `Confirmed`, and the book debited. -/
  confirmed : Bool
  deriving DecidableEq

/-- The ledger with the treasury withdrawals. -/
structure Books where
  ledger : Ledger
  withdrawals : Store ℕ TreasuryWithdraw

/-- `UNRESOLVED_BROADCAST_INCIDENT_SECS`. -/
def unresolvedBroadcastIncidentSecs : ℤ := 1800

/-- `SPLIT_MISSING_INPUTS_GRACE_SECS`. -/
def splitMissingInputsGraceSecs : ℤ := 600

/-- The operation was handed to a node, and is no incident yet. -/
def RobinhoodTxState.isOutbound (state : RobinhoodTxState) (finalizedAt : Option ℤ) (now : ℤ) : Prop :=
  state = .broadcast ∨ state = .included ∨
    (state = .finalized ∧ ∃ t ∈ finalizedAt, now - unresolvedBroadcastIncidentSecs < t)

instance (state : RobinhoodTxState) (finalizedAt : Option ℤ) (now : ℤ) :
    Decidable (state.isOutbound finalizedAt now) :=
  inferInstanceAs (Decidable (_ ∨ _ ∨ _ ∧ _))

/-- Past the grace window of a refused rebroadcast. -/
def Split.isOverdue (s : Split) (now : ℤ) : Prop :=
  ∃ t ∈ s.missingInputsSince, t + splitMissingInputsGraceSecs ≤ now

instance (s : Split) (now : ℤ) : Decidable (s.isOverdue now) :=
  inferInstanceAs (Decidable (∃ t ∈ s.missingInputsSince, _))

/-- `split_chunks_still_explainable`. -/
def Split.isExplainable (s : Split) (now : ℤ) : Prop :=
  (s.state = .broadcast ∨ s.state = .confirmed) ∧ ¬ s.isOverdue now

instance (s : Split) (now : ℤ) : Decidable (s.isExplainable now) :=
  inferInstanceAs (Decidable (_ ∧ _))

/-- Sent to the chain of `d`, and not debited on its book yet. -/
def Request.isPendingOn (r : Request) (d : ReserveDirection) : Prop :=
  r.direction.destinationReserve = d ∧ (r.state = .destinationSubmitted ∨
    (r.state = .destinationConfirmed ∧ ¬ r.direction.destinationDebitedAtDestinationConfirmed))

instance (r : Request) (d : ReserveDirection) : Decidable (r.isPendingOn d) :=
  inferInstanceAs (Decidable (_ ∧ _))

namespace Ledger

/-- `SELECT COALESCE(SUM(…), 0) FROM bridge_requests`. -/
def sumRequests (l : Ledger) (amount : Request → ℤ) : ℤ := l.requests.sum amount

/-- The sum over the payouts on Goldcoin in one state. -/
def sumPayouts (l : Ledger) (state : GoldcoinPayoutState) (amount : GoldcoinPayout → ℤ) : ℤ :=
  l.sumRequests fun r => match r.goldcoinPayout with
    | some p => if p.state = state then amount p else 0
    | none => 0

/-- The transaction is that of a payout of this service. -/
def IsPayoutTx (l : Ledger) (txid : Txid) : Prop :=
  ∃ e ∈ l.requests.entries, ∃ p ∈ e.2.goldcoinPayout, p.txid = some txid

instance (l : Ledger) (txid : Txid) : Decidable (l.IsPayoutTx txid) :=
  inferInstanceAs (Decidable (∃ e ∈ l.requests.entries, ∃ p ∈ e.2.goldcoinPayout, _))

/-- The transaction is that of a split still explainable. -/
def IsExplainableSplitTx (l : Ledger) (txid : Txid) (now : ℤ) : Prop :=
  ∃ s ∈ l.vault.splits.entries, s.2.txid = some txid ∧ s.2.isExplainable now

instance (l : Ledger) (txid : Txid) (now : ℤ) : Decidable (l.IsExplainableSplitTx txid now) :=
  inferInstanceAs (Decidable (∃ s ∈ l.vault.splits.entries, _))

/-- `own_unconfirmed_change_atomic`. -/
def ownUnconfirmedChange (l : Ledger) (now : ℤ) : ℕ :=
  asU64 ((l.vault.utxos.entries.filter fun e => e.2.state = .unconfirmed ∧
    (l.IsPayoutTx e.1.1 ∨ l.IsExplainableSplitTx e.1.1 now)).map fun e => e.2.amount).sum

/-- `flagged_dead_splits`. -/
def flaggedDeadSplits (l : Ledger) (now : ℤ) : List ℕ :=
  (l.vault.splits.entries.filter fun e => e.2.state = .broadcast ∧ e.2.isOverdue now).map Prod.fst

end Ledger

namespace Books

/-- `robinhood_outbound_in_flight_atomic`. -/
def robinhoodOutboundInFlight (b : Books) (now : ℤ) : ℕ :=
  saturatingAdd
    (asU64 (b.ledger.sumRequests fun r => match r.robinhoodTx .payout with
      | some t =>
        if t.state.isOutbound t.finalizedAt now ∧ r.state ≠ .destinationConfirmed ∧
          r.state ≠ .settled then r.netDestination else 0
      | none => 0))
    (asU64 (b.withdrawals.sum fun w =>
      if w.state.isOutbound w.finalizedAt now ∧ w.confirmed = false then w.amount else 0))

/-- `pending_destination_settlement_amount`. -/
def pendingDestinationSettlementAmount (b : Books) (d : ReserveDirection) (now : ℤ) : ℕ :=
  let l := b.ledger
  let settlement := asU64 (l.sumRequests fun r => if r.isPendingOn d then r.netDestination else 0)
  match d with
  | .solanaReserve =>
    saturatingAdd settlement (asU64 (l.sumRequests fun r => match r.solanaRefund with
      | some f => if f.state = .broadcast then f.amount else 0
      | none => 0))
  | .goldcoinReserve =>
    let withPayouts := saturatingAdd settlement
      (asU64 (l.sumPayouts .broadcast fun p => p.payout + p.change + p.fee))
    let withChange := saturatingAdd withPayouts (l.ownUnconfirmedChange now)
    let withFees := saturatingAdd withChange (asU64 (l.sumPayouts .confirmed GoldcoinPayout.fee))
    saturatingAdd withFees
      (asU64 (l.vault.splits.sum fun s => if s.isExplainable now then s.fee else 0))
  | .robinhoodReserve => saturatingAdd settlement (b.robinhoodOutboundInFlight now)

end Books

/-! ## The tick -/

inductive Classification
  | withinTolerance | inFlightExplained | breach
  deriving DecidableEq, Repr

structure ReconciliationReport where
  direction : ReserveDirection
  observedBalance : ℕ
  cachedBalanceBefore : ℕ
  protectedMinimum : ℕ
  reservedLiquidity : ℕ
  pendingObligations : ℕ
  accruedFees : ℕ
  ownUnconfirmedChange : ℕ
  classification : Classification
  autoPaused : Bool
  deadSplitIds : List ℕ
  deriving DecidableEq

/-- By how much the balance is below the book. -/
def Reserve.rawDrop (v : Reserve) (observed : ℕ) : ℕ :=
  let delta := asI64 (asI64 observed - v.totalReserveBalance)
  if delta < 0 then (-delta).toNat else 0

namespace Books

/-- `explained_by_in_flight`. -/
def explainedByInFlight (b : Books) (v : Reserve) (d : ReserveDirection) (observed : ℕ) (now : ℤ) : ℕ :=
  min (v.rawDrop observed) (b.pendingDestinationSettlementAmount d now)

/-- `residual_drop`. -/
def residualDrop (b : Books) (v : Reserve) (d : ReserveDirection) (observed : ℕ) (now : ℤ) : ℕ :=
  v.rawDrop observed - b.explainedByInFlight v d observed now

/-- `hard_invariant_holds`. -/
def HardInvariant (v : Reserve) (observed ownChange : ℕ) : Prop :=
  (asU64 v.protectedMinimum + asU64 v.pendingObligations) % 2 ^ 64 ≤ saturatingAdd observed ownChange

instance (v : Reserve) (observed ownChange : ℕ) : Decidable (HardInvariant v observed ownChange) :=
  inferInstanceAs (Decidable (_ ≤ _))

/-- `reconcile`. -/
def reconcile (b : Books) (d : ReserveDirection) (observed tolerance : ℕ) (now : ℤ) :
    Except LedgerError (Books × ReconciliationReport) := do
  let v ← b.ledger.reserve d
  let ownChange := if d = .goldcoinReserve then b.ledger.ownUnconfirmedChange now else 0
  let deadSplitIds := if d = .goldcoinReserve then b.ledger.flaggedDeadSplits now else []
  let classification : Classification :=
    if ¬ HardInvariant v observed ownChange ∨ tolerance < b.residualDrop v d observed now ∨
      deadSplitIds ≠ [] then .breach
    else if 0 < b.explainedByInFlight v d observed now then .inFlightExplained
    else .withinTolerance
  let autoPaused : Bool := classification = .breach
  let ledger := if autoPaused then b.ledger.updateReserve d fun v => { v with paused := true }
    else b.ledger
  return ({ b with ledger := ledger.refreshReserveBalance d observed },
    { direction := d
      observedBalance := observed
      cachedBalanceBefore := asU64 v.totalReserveBalance
      protectedMinimum := asU64 v.protectedMinimum
      reservedLiquidity := asU64 v.reservedLiquidity
      pendingObligations := asU64 v.pendingObligations
      accruedFees := asU64 v.accruedFees
      ownUnconfirmedChange := ownChange
      classification := classification
      autoPaused := autoPaused
      deadSplitIds := deadSplitIds })

section Tick

variable {b b' : Books} {d : ReserveDirection} {observed tolerance : ℕ} {now : ℤ} {v : Reserve}
  {report : ReconciliationReport}

/-- A tick needs the row of its reserve only, and it pauses on a breach. -/
theorem reconcile_eq_ok (hv : b.ledger.reserves d = some v) :
    ∃ b' report, b.reconcile d observed tolerance now = .ok (b', report) ∧
      (tolerance < b.residualDrop v d observed now →
        report.classification = .breach ∧ report.autoPaused = true) := by
  simp only [reconcile, bind_eq_ok, Ledger.reserve_eq_ok, pure_eq_ok]
  refine ⟨_, _, ⟨v, hv, rfl⟩, fun hdrop => ?_⟩
  dsimp only
  rw [if_pos (.inr (.inl hdrop))]
  exact ⟨rfl, rfl⟩

/-- A book within reach of the balance: the drop is their difference. -/
theorem rawDrop_eq (hobserved : observed < 2 ^ 63) (hle : observed ≤ v.totalReserveBalance)
    (hbook : v.totalReserveBalance < 2 ^ 63) :
    (v.rawDrop observed : ℤ) = v.totalReserveBalance - observed := by
  have hcast : asI64 observed = observed := asI64_of_lt (by omega) (by omega)
  have hdelta : asI64 (asI64 observed - v.totalReserveBalance) = observed - v.totalReserveBalance := by
    rw [hcast]
    exact asI64_of_lt (by omega) (by omega)
  simp only [Reserve.rawDrop, hdelta]
  split_ifs with h
  · rw [Int.toNat_of_nonneg (by omega)]
    omega
  · omega

end Tick

end Books

/-! ## Balance and book over a run -/

/-- The books and the balances on the chains, with what a run has to account
for. -/
structure Monitor where
  books : Books
  live : ReserveDirection → ℕ
  /-- The balance at the last tick. -/
  seen : ReserveDirection → ℕ
  /-- What this service sent out since the last tick. -/
  left : ReserveDirection → ℕ
  /-- What went without authorization since the last tick. -/
  drops : ReserveDirection → ℕ
  /-- All that this service sent out. -/
  outflows : ReserveDirection → ℕ
  /-- All that ticks took for explained. -/
  explained : ReserveDirection → ℕ

namespace Monitor

inductive Event
  | op (o : Op)
  | beginWithdraw (amount : ℤ)
  | moveWithdraw (id : ℕ) (state : RobinhoodTxState) (finalizedAt : Option ℤ)
  /-- `confirm_rebalance`, of a withdrawal from Robinhood. -/
  | confirmWithdraw (id : ℕ) (observed : ℕ)
  /-- A recorded outflow leaves the reserve. -/
  | outflow (d : ReserveDirection) (amount : ℕ)
  | drop (d : ReserveDirection) (amount : ℕ)
  | tick (d : ReserveDirection) (tolerance : ℕ) (now : ℤ)

/-- Only a tick sets the book to a balance. -/
def isRefresh : Op → Bool
  | .refreshReserveBalance _ _ => true
  | _ => false

def step (m : Monitor) : Event → Option Monitor
  | .op o => if isRefresh o then none else
      (m.books.ledger.step o).map fun l => { m with books := { m.books with ledger := l } }
  | .beginWithdraw amount => some { m with books := { m.books with
      withdrawals := m.books.withdrawals.push
        { state := .authorizing
          finalizedAt := none
          amount := amount
          confirmed := false } } }
  | .moveWithdraw id state finalizedAt => some { m with books := { m.books with
      withdrawals := m.books.withdrawals.modify id fun w =>
        { w with state := state, finalizedAt := finalizedAt } } }
  | .confirmWithdraw id observed => some { m with books :=
      { ledger := m.books.ledger.confirmRebalance .robinhoodReserve (-asI64 observed)
        withdrawals := m.books.withdrawals.modify id fun w => { w with confirmed := true } } }
  | .outflow d amount =>
    if amount ≤ m.live d then
      some { m with
        live := Function.update m.live d (m.live d - amount)
        left := Function.update m.left d (m.left d + amount)
        outflows := Function.update m.outflows d (m.outflows d + amount) }
    else none
  | .drop d amount =>
    if amount ≤ m.live d then
      some { m with
        live := Function.update m.live d (m.live d - amount)
        drops := Function.update m.drops d (m.drops d + amount) }
    else none
  | .tick d tolerance now =>
    match m.books.ledger.reserves d, m.books.reconcile d (m.live d) tolerance now with
    | some v, .ok (books, _) =>
      some { m with
        books := books
        seen := Function.update m.seen d (m.live d)
        left := Function.update m.left d 0
        drops := Function.update m.drops d 0
        explained := Function.update m.explained d
          (m.explained d + m.books.explainedByInFlight v d (m.live d) now) }
    | _, _ => none

/-- Balances as they are, and nothing recorded. -/
def initial (live : ReserveDirection → ℕ) : Monitor where
  books := { ledger := .empty, withdrawals := .empty }
  live := live
  seen := live
  left := 0
  drops := 0
  outflows := 0
  explained := 0

/-- The state after a run. -/
abbrev after (live : ReserveDirection → ℕ) (events : List Event) : Monitor :=
  Run.final step (initial live) events

/-- A tick that follows an unauthorized drop beyond its tolerance is a breach,
and pauses the reserve. -/
def Detects (m : Monitor) : Event → Prop
  | .tick d tolerance now => tolerance < m.drops d →
    ∃ books report, m.books.reconcile d (m.live d) tolerance now = .ok (books, report) ∧
      report.classification = .breach ∧ report.autoPaused = true
  | _ => True

/-- At a tick, what is in flight and what was debited since the last one are
covered by what this service sent out since the last one. The book was not
credited, and the balance is an `i64`. -/
def Covered (m : Monitor) : Event → Prop
  | .tick d _ now => ∀ v ∈ m.books.ledger.reserves d,
    m.seen d < 2 ^ 63 ∧ v.totalReserveBalance ≤ m.seen d ∧
      m.books.pendingDestinationSettlementAmount d now + (m.seen d - v.totalReserveBalance) ≤
        (m.left d : ℤ)
  | _ => True

instance (m : Monitor) (e : Event) : Decidable (m.Covered e) := by
  unfold Covered
  split <;> infer_instance

/-- Where the balance went. -/
structure Inv (m : Monitor) : Prop where
  balance : ∀ d, m.live d + m.left d + m.drops d = m.seen d
  explained : ∀ d, m.explained d + m.left d ≤ m.outflows d

variable {m m' : Monitor} {e : Event} {live : ReserveDirection → ℕ} {events : List Event}

theorem inv_initial : (initial live).Inv where
  balance := fun d => by simp [initial]
  explained := fun d => by simp [initial]

/-- A covered tick explains no more than what left since the last one, and sees
every unauthorized drop on top of it. -/
theorem tick_of_covered {d : ReserveDirection} {tolerance : ℕ} {now : ℤ} {v : Reserve}
    (hinv : m.Inv) (hcovered : m.Covered (.tick d tolerance now))
    (hv : m.books.ledger.reserves d = some v) :
    m.books.explainedByInFlight v d (m.live d) now ≤ m.left d ∧
      m.drops d ≤ m.books.residualDrop v d (m.live d) now := by
  obtain ⟨hseen, hbook, hflight⟩ := hcovered v hv
  have hbalance := hinv.balance d
  -- the debits are covered too, so the book is above the balance
  have hdrop : (v.rawDrop (m.live d) : ℤ) = v.totalReserveBalance - m.live d :=
    Books.rawDrop_eq (by omega) (by omega) (by omega)
  simp only [Books.residualDrop, Books.explainedByInFlight]
  omega

theorem detects_of_covered (hinv : m.Inv) (hcovered : m.Covered e)
    (h : step m e = some m') : m.Detects e := by
  cases e with
  | tick d tolerance now =>
    intro hdrop
    simp only [step] at h
    split at h
    · rename_i v _ _ hv _
      obtain ⟨-, hresidual⟩ := tick_of_covered hinv hcovered hv
      obtain ⟨books, report, hok, hbreach⟩ := Books.reconcile_eq_ok hv
      exact ⟨books, report, hok, hbreach (lt_of_lt_of_le hdrop hresidual)⟩
    · cases h
  | _ => trivial

theorem Inv.step (hinv : m.Inv) (hcovered : m.Covered e) (h : step m e = some m') : m'.Inv := by
  obtain ⟨hbalance, hexplained⟩ := id hinv
  cases e with
  | op o =>
    simp only [Monitor.step] at h
    split_ifs at h
    obtain ⟨l, -, rfl⟩ := Option.map_eq_some_iff.mp h
    exact ⟨hbalance, hexplained⟩
  | beginWithdraw amount =>
    obtain rfl := Option.some.inj h
    exact ⟨hbalance, hexplained⟩
  | moveWithdraw id state finalizedAt =>
    obtain rfl := Option.some.inj h
    exact ⟨hbalance, hexplained⟩
  | confirmWithdraw id observed =>
    obtain rfl := Option.some.inj h
    exact ⟨hbalance, hexplained⟩
  | outflow d amount =>
    simp only [Monitor.step] at h
    split_ifs at h with hle
    obtain rfl := Option.some.inj h
    refine ⟨fun e => ?_, fun e => ?_⟩
    · have := hbalance e
      by_cases he : e = d
      · subst he
        simp only [Function.update_self]
        omega
      · simpa [Function.update_of_ne he] using this
    · have := hexplained e
      by_cases he : e = d
      · subst he
        simp only [Function.update_self]
        omega
      · simpa [Function.update_of_ne he] using this
  | drop d amount =>
    simp only [Monitor.step] at h
    split_ifs at h with hle
    obtain rfl := Option.some.inj h
    refine ⟨fun e => ?_, hexplained⟩
    have := hbalance e
    by_cases he : e = d
    · subst he
      simp only [Function.update_self]
      omega
    · simpa [Function.update_of_ne he] using this
  | tick d tolerance now =>
    simp only [Monitor.step] at h
    split at h
    · rename_i v _ _ hv _
      obtain rfl := Option.some.inj h
      obtain ⟨hle, -⟩ := tick_of_covered hinv hcovered hv
      refine ⟨fun e => ?_, fun e => ?_⟩
      · have := hbalance e
        by_cases he : e = d
        · subst he
          simp
        · simpa [Function.update_of_ne he] using this
      · have := hexplained e
        by_cases he : e = d
        · subst he
          simp only [Function.update_self]
          omega
        · simpa [Function.update_of_ne he] using this
    · cases h

/-- In every run whose ticks are covered, the ticks explain no more than what
was sent out, and each unauthorized drop beyond the tolerance is a breach at the
first tick after it. -/
theorem outflows_explained_once
    (h : ∀ x ∈ Run.history step (initial live) events, x.1.Covered x.2) :
    (∀ d, (after live events).explained d ≤ (after live events).outflows d) ∧
      ∀ x ∈ Run.history step (initial live) events, x.1.Detects x.2 := by
  have hstep : ∀ m e m', Inv m → Covered m e → step m e = some m' → Inv m' :=
    fun m e m' hinv hcovered hs => Inv.step hinv hcovered hs
  refine ⟨fun d => ?_, fun x hx => ?_⟩
  · have hinv : (after live events).Inv := Run.invariant_of_history hstep inv_initial events h
    exact le_trans (Nat.le_add_right _ _) (hinv.explained d)
  · obtain ⟨hinv, m', hs⟩ := Run.invariant_at_history hstep inv_initial events h x hx
    exact detects_of_covered hinv (h x hx) hs

/-- A release out of a reserve of 5000, up to its submission. -/
def sampleRelease : List Event :=
  [.op (.configureReserve .solanaReserve 5000 0),
   .op (.foldRobinhoodDeposit Ledger.sampleObservation Ledger.sampleAmounts (some [2]) true none 100),
   .op (.recordReleaseSubmitted 1 77)]

/-- It leaves and is debited, and a theft is left for the tick. -/
def sampleTheft : List Event :=
  sampleRelease ++ [.outflow .solanaReserve 1000, .op (.markReleaseConfirmed 1),
    .drop .solanaReserve 10, .tick .solanaReserve 0 200]

theorem outflows_explained_once_sample :
    (∀ d, (after (fun _ => 5000) sampleTheft).explained d ≤
        (after (fun _ => 5000) sampleTheft).outflows d) ∧
      ∀ x ∈ Run.history step (initial fun _ => 5000) sampleTheft, x.1.Detects x.2 :=
  outflows_explained_once (by decide)

/-- A tick while the release is in flight, and a theft of the same size after
it. -/
def maskedTheft : List Event :=
  sampleRelease ++ [.outflow .solanaReserve 1000, .tick .solanaReserve 0 200,
    .drop .solanaReserve 1000]

/-- The next tick takes the one release for its explanation again, and is no
breach. -/
theorem outflow_explained_twice :
    (after (fun _ => 5000) (maskedTheft ++ [.tick .solanaReserve 0 300])).outflows .solanaReserve
        = 1000 ∧
      (after (fun _ => 5000) (maskedTheft ++ [.tick .solanaReserve 0 300])).explained .solanaReserve
        = 2000 ∧
      ¬ (after (fun _ => 5000) maskedTheft).Detects (.tick .solanaReserve 0 300) ∧
      (step (after (fun _ => 5000) maskedTheft) (.tick .solanaReserve 0 300)).isSome := by
  refine ⟨by decide, by decide, fun h => ?_, by decide⟩
  have hclass : ((after (fun _ => 5000) maskedTheft).books.reconcile .solanaReserve
      ((after (fun _ => 5000) maskedTheft).live .solanaReserve) 0 300).toOption.map
        (fun x => x.2.classification) = some .inFlightExplained := by decide
  obtain ⟨books, report, hok, hbreach, -⟩ := h (by decide)
  rw [hok, Except.toOption, Option.map_some, hbreach] at hclass
  cases hclass

end Monitor

end Service
