-- SUMMARY: Settlement accounting: what the completion paths do to the reserve rows, and that over any run of them a request is accounted exactly once.
import ReserveBridge.Service.Ledger.Effects

/-!
# Settlement accounting

Six paths conclude a request: a confirmation by polling and a reconciliation
with the chain for releases and for Goldcoin completions, and the finality of a
payout and of a settlement on Robinhood. Whichever comes first debits the
reserve of the destination, and the others find the request concluded.
-/

namespace Service
open Guard

/-! ## Concluded requests -/

namespace Request

/-- The reserve of the destination was debited: at the end, and on the two
routes that close out afterwards, when the destination leg was final. -/
def isConcluded (r : Request) : Bool :=
  r.state = .settled ∨
    (r.state = .destinationConfirmed ∧ (r.direction = .solToRhn ∨ r.direction = .rhnToSol))

/-- What a concluded request took out of a reserve. -/
def paidOn (d : ReserveDirection) (r : Request) : ℤ :=
  if r.isConcluded = true ∧ d = r.direction.destinationReserve then r.netDestination else 0

/-- The fee a concluded request left on a reserve. -/
def feeOn (d : ReserveDirection) (r : Request) : ℤ :=
  if r.isConcluded = true ∧ d = r.direction.sourceReserve then r.feeAmount else 0

/-- The columns a completion never writes. -/
structure SameTerms (r r' : Request) : Prop where
  direction : r'.direction = r.direction
  netDestination : r'.netDestination = r.netDestination
  feeAmount : r'.feeAmount = r.feeAmount

theorem SameTerms.rfl {r : Request} : SameTerms r r := by constructor <;> exact Eq.refl _

variable {r r' : Request} {d : ReserveDirection}

theorem paidOn_congr (h : SameTerms r r') (hc : r'.isConcluded = r.isConcluded) :
    r'.paidOn d = r.paidOn d := by
  simp only [paidOn, hc, h.direction, h.netDestination]

theorem feeOn_congr (h : SameTerms r r') (hc : r'.isConcluded = r.isConcluded) :
    r'.feeOn d = r.feeOn d := by
  simp only [feeOn, hc, h.direction, h.feeAmount]

end Request

namespace Ledger

/-- What all concluded requests took out of a reserve. -/
def paid (l : Ledger) (d : ReserveDirection) : ℤ := l.requests.sum (Request.paidOn d)

/-- The fees all concluded requests left on a reserve. -/
def fees (l : Ledger) (d : ReserveDirection) : ℤ := l.requests.sum (Request.feeOn d)

/-! ## Accounting of a change -/

/-- The reserve rows changed by what was concluded in between, and a concluded
request stays concluded. -/
structure Settles (l l' : Ledger) : Prop where
  request : ∀ id r, l.requests.get? id = some r → ∃ r', l'.requests.get? id = some r' ∧
    Request.SameTerms r r' ∧ (r.isConcluded = true → r'.isConcluded = true)
  reserve : ∀ d v, l.reserves d = some v → ∃ v', l'.reserves d = some v' ∧
    v'.totalReserveBalance = v.totalReserveBalance - (l'.paid d - l.paid d) ∧
    v'.reservedLiquidity = v.reservedLiquidity - (l'.paid d - l.paid d) ∧
    v'.pendingObligations = v.pendingObligations - (l'.paid d - l.paid d) ∧
    v'.settledLiquidityTotal = v.settledLiquidityTotal + (l'.paid d - l.paid d) ∧
    v'.accruedFees = v.accruedFees + (l'.fees d - l.fees d)

variable {l l₁ l' : Ledger} {id : ℕ} {r r' : Request} {op : Op}

theorem Settles.refl : Settles l l where
  request _ r h := ⟨r, h, .rfl, fun hc => hc⟩
  reserve _ v h := ⟨v, h, by simp⟩

theorem Settles.trans (h : Settles l l₁) (h' : Settles l₁ l') : Settles l l' where
  request id r hget := by
    obtain ⟨r₁, hget₁, hsame₁, hc₁⟩ := h.request id r hget
    obtain ⟨r', hget', hsame', hc'⟩ := h'.request id r₁ hget₁
    exact ⟨r', hget', ⟨hsame'.direction.trans hsame₁.direction,
      hsame'.netDestination.trans hsame₁.netDestination,
      hsame'.feeAmount.trans hsame₁.feeAmount⟩, hc' ∘ hc₁⟩
  reserve d v hv := by
    obtain ⟨v₁, hv₁, h₁⟩ := h.reserve d v hv
    obtain ⟨v', hv', h'⟩ := h'.reserve d v₁ hv₁
    refine ⟨v', hv', ?_⟩
    omega

/-- The rows after the row of one request was written. -/
theorem request_of_modify (hget : l.requests.get? id = some r) (hsame : Request.SameTerms r r')
    (hc : r.isConcluded = true → r'.isConcluded = true)
    (hrequests : l'.requests = l.requests.modify id fun _ => r') :
    ∀ k r₁, l.requests.get? k = some r₁ → ∃ r₂, l'.requests.get? k = some r₂ ∧
      Request.SameTerms r₁ r₂ ∧ (r₁.isConcluded = true → r₂.isConcluded = true) := by
  intro k r₁ hget₁
  have rows := get?_setRequest hget r' k
  rw [requests_setRequest, ← hrequests] at rows
  by_cases hk : k = id
  · subst hk
    obtain rfl := Option.some.inj (hget.symm.trans hget₁)
    rw [if_pos rfl] at rows
    exact ⟨r', rows, hsame, hc⟩
  · rw [if_neg hk, hget₁] at rows
    exact ⟨r₁, rows, .rfl, fun h => h⟩

/-- A row that is written without concluding its request. -/
theorem settles_of_same (hget : l.requests.get? id = some r)
    (hrequests : l'.requests = l.requests.modify id fun _ => r') (hsame : Request.SameTerms r r')
    (hc : r'.isConcluded = r.isConcluded)
    (hreserves : l'.reserves = l.reserves) : Settles l l' where
  request := request_of_modify hget hsame (fun h => hc.trans h) hrequests
  reserve d v hv := by
    have hpaid : l'.paid d = l.paid d := by
      rw [paid, hrequests, Store.sum_modify_of_eq hget (Request.paidOn_congr hsame hc), paid]
    have hfees : l'.fees d = l.fees d := by
      rw [fees, hrequests, Store.sum_modify_of_eq hget (Request.feeOn_congr hsame hc), fees]
    exact ⟨v, hreserves ▸ hv, by simp [hpaid, hfees]⟩

/-- A row that is concluded, with the reserve of its destination settled and its
fee accrued on the reserve of its source. -/
theorem settles_of_conclude {d e : ReserveDirection} (hget : l.requests.get? id = some r)
    (hrequests : l'.requests = l.requests.modify id fun _ => r') (hsame : Request.SameTerms r r')
    (hc : r.isConcluded = false) (hc' : r'.isConcluded = true)
    (hd : r.direction.destinationReserve = d) (he : r.direction.sourceReserve = e)
    (hreserves : l'.reserves =
      ((l.settle d r.netDestination).accrueFee e r.feeAmount).reserves) : Settles l l' where
  request := request_of_modify hget hsame (fun h => by rw [hc] at h; cases h) hrequests
  reserve f v hv := by
    have hpaid : l'.paid f = l.paid f + if f = d then r.netDestination else 0 := by
      rw [paid, hrequests, Store.sum_modify hget, paid]
      simp [Request.paidOn, hc, hc', hsame.direction, hsame.netDestination, hd]
    have hfees : l'.fees f = l.fees f + if f = e then r.feeAmount else 0 := by
      rw [fees, hrequests, Store.sum_modify hget, fees]
      simp [Request.feeOn, hc, hc', hsame.direction, hsame.feeAmount, he]
    have hrow : ((l.settle d r.netDestination).accrueFee e r.feeAmount).reserves f = some
        { v with
          reservedLiquidity := v.reservedLiquidity - if f = d then r.netDestination else 0
          pendingObligations := v.pendingObligations - if f = d then r.netDestination else 0
          settledLiquidityTotal := v.settledLiquidityTotal + if f = d then r.netDestination else 0
          totalReserveBalance := v.totalReserveBalance - if f = d then r.netDestination else 0
          accruedFees := v.accruedFees + if f = e then r.feeAmount else 0 } := by
      rw [accrueFee, reserves_updateReserve, settle, reserves_updateReserve, reserves_updateReserve]
      by_cases hf' : f = e
      · subst hf'
        by_cases hf : f = d
        · subst hf
          simp [hv]
        · simp [hf, hv]
      · by_cases hf : f = d
        · subst hf
          simp [hf', hv]
        · simp [hf, hf', hv]
    refine ⟨_, hreserves ▸ hrow, ?_⟩
    rw [hpaid, hfees]
    simp

/-! ## The completion paths -/

end Ledger

/-- The request a completion path concludes. -/
def Op.completes : Op → Option ℕ
  | .markReleaseConfirmed id | .reconcileReleaseFromChain id
  | .markGoldcoinCompletionConfirmed id | .applyCompletionLanded id
  | .markRobinhoodPayoutSettled id | .markRobinhoodPayoutCompletionConfirmed id
  | .markRobinhoodSettlementConfirmed id | .reconcileRobinhoodSettlementFromChain id _ _ => some id
  | _ => none

namespace Ledger

variable {l l₁ l' : Ledger} {id : ℕ} {r r' : Request} {op : Op}

/-- A path that did something, or found its request concluded. -/
def Completes (l : Ledger) (id : ℕ) (l' : Ledger) : Prop :=
  Settles l l' ∧
    ∀ r, l.requests.get? id = some r → r.isConcluded = true → l'.reserves = l.reserves

theorem Completes.refl : l.Completes id l := ⟨.refl, fun _ _ _ => rfl⟩

/-- A request that was open. -/
theorem Completes.of_open (h : Settles l l') (hget : l.requests.get? id = some r)
    (hc : r.isConcluded = false) : l.Completes id l' := by
  refine ⟨h, fun r' hget' hc' => ?_⟩
  obtain rfl := Option.some.inj (hget.symm.trans hget')
  rw [hc] at hc'
  cases hc'

theorem releaseConfirmed_completes (h : l.releaseConfirmed id = .ok l') : l.Completes id l' := by
  obtain ⟨r, hget, hdestination, ⟨rfl, -⟩ | ⟨hstate, rfl⟩⟩ := releaseConfirmed_cases h
  · exact .refl
  have hopen : r.isConcluded = false := by simp [Request.isConcluded, hstate]
  have hd : r.direction.destinationReserve = .solanaReserve := by
    rw [Direction.destinationReserve, hdestination]
  refine .of_open (settles_of_conclude hget rfl ?_ hopen ?_ hd rfl rfl) hget hopen
  · split_ifs <;> exact ⟨rfl, rfl, rfl⟩
  · -- the other route to Solana closes out on Robinhood afterwards
    revert hdestination
    cases hroute : r.direction <;>
      simp [Direction.destinationIsSolana, Direction.destinationChain, Direction.settlesOnRelease,
        Request.isConcluded, hroute]

theorem reconcileReleaseFromChain_completes (h : l.reconcileReleaseFromChain id = .ok l') :
    l.Completes id l' := by
  simp only [reconcileReleaseFromChain, bind_eq_ok, request_eq_ok] at h
  obtain ⟨r, -, h⟩ := h
  by_cases hstate : r.state = .destinationSubmitted
  · rw [if_neg (not_not.mpr hstate)] at h
    exact releaseConfirmed_completes h
  · rw [if_pos hstate] at h
    simp only [bind_eq_ok, require_eq_ok, exists_unit, pure_eq_ok] at h
    exact h.2 ▸ .refl

theorem goldcoinCompletionConfirmed_completes {submitted : Bool}
    (hroute : ∀ r, l.requests.get? id = some r →
      (submitted = true → (r.goldcoinPayout.bind GoldcoinPayout.completionSignature).isSome) →
      r.direction = .solToGlc)
    (h : l.goldcoinCompletionConfirmed id submitted = .ok l') : l.Completes id l' := by
  obtain ⟨r, hget, ⟨rfl, -⟩ | ⟨hstate, hsubmitted, vault, rfl⟩⟩ :=
    goldcoinCompletionConfirmed_cases h
  · exact .refl
  have hdirection := hroute r hget hsubmitted
  have hopen : r.isConcluded = false := by simp [Request.isConcluded, hstate, hdirection]
  refine .of_open (settles_of_conclude hget rfl ⟨rfl, rfl, rfl⟩ hopen rfl ?_ ?_ rfl) hget hopen
  · rw [hdirection]
    rfl
  · rw [hdirection]
    rfl

theorem applyCompletionLanded_completes (h : l.applyCompletionLanded id = .ok l') :
    l.Completes id l' := by
  simp only [applyCompletionLanded, reconcileGoldcoinCompletionFromChain, bind_eq_ok,
    request_eq_ok, require_eq_ok, exists_unit] at h
  obtain ⟨r, hget, hdirection, r', hget', h⟩ := h
  obtain rfl : r' = r := Option.some.inj (hget'.symm.trans hget)
  by_cases hdone : r'.state = .settled
  · rw [if_pos hdone, pure_eq_ok] at h
    exact h ▸ .refl
  · rw [if_neg hdone] at h
    simp only [bind_eq_ok, require_eq_ok, exists_unit] at h
    refine goldcoinCompletionConfirmed_completes (fun r hr _ => ?_) h.2
    rwa [Option.some.inj (hr.symm.trans hget)]

theorem markRobinhoodPayoutSettled_completes (h : l.markRobinhoodPayoutSettled id = .ok l') :
    l.Completes id l' := by
  obtain ⟨r, hget, hdestination, ⟨rfl, -⟩ | ⟨hstate, rfl⟩⟩ := markRobinhoodPayoutSettled_cases h
  · exact .refl
  have hd : r.direction.destinationReserve = .robinhoodReserve := by
    rw [Direction.destinationReserve, hdestination]
  -- of the two routes to Robinhood one is over with its payout
  have hroute : r.direction = .glcToRhn ∨ r.direction = .solToRhn := by
    revert hdestination
    cases r.direction <;> simp [Direction.destinationIsRobinhood, Direction.destinationChain]
  have hopen : r.isConcluded = false := by
    rw [not_or] at hstate
    obtain hroute | hroute := hroute
    · simp [Request.isConcluded, hstate.1, hroute]
    · simpa [Request.isConcluded, hroute, Direction.settlesOnPayout, hstate.1] using hstate.2
  refine .of_open (settles_of_conclude hget rfl ?_ hopen ?_ hd rfl rfl) hget hopen
  · split_ifs <;> exact ⟨rfl, rfl, rfl⟩
  · obtain hroute | hroute := hroute <;>
      simp [hroute, Direction.settlesOnPayout, Request.isConcluded]

theorem markRobinhoodPayoutCompletionConfirmed_completes
    (h : l.markRobinhoodPayoutCompletionConfirmed id = .ok l') : l.Completes id l' := by
  simp only [markRobinhoodPayoutCompletionConfirmed, bind_eq_ok, request_eq_ok, require_eq_ok,
    exists_unit] at h
  obtain ⟨r, hget, hroute, h⟩ := h
  by_cases hdone : r.state = .settled
  · rw [if_pos hdone, pure_eq_ok] at h
    exact h ▸ .refl
  rw [if_neg hdone] at h
  simp only [bind_eq_ok, require_eq_ok, exists_unit, pure_eq_ok] at h
  obtain ⟨hstate, -, rfl⟩ := h
  have hc : (r.transition .settled).isConcluded = r.isConcluded := by
    simp [Request.isConcluded, hstate, hroute]
  exact ⟨settles_of_same hget rfl ⟨rfl, rfl, rfl⟩ hc rfl, fun _ _ _ => rfl⟩

theorem robinhoodSettleConfirmed_completes (h : l.robinhoodSettleConfirmed id = .ok l') :
    l.Completes id l' := by
  obtain ⟨r, hget, -, ⟨rfl, -⟩ | ⟨hstate, ⟨hroute, rfl⟩ | ⟨hroute, rfl⟩⟩⟩ :=
    robinhoodSettleConfirmed_cases h
  · exact .refl
  · have hopen : r.isConcluded = false := by simp [Request.isConcluded, hstate, hroute]
    refine .of_open (settles_of_conclude hget rfl ⟨rfl, rfl, rfl⟩ hopen rfl ?_ ?_ rfl) hget hopen
    · rw [hroute]
      rfl
    · rw [hroute]
      rfl
  · have hc : (r.transition .settled).isConcluded = r.isConcluded := by
      simp [Request.isConcluded, hstate, hroute]
    exact ⟨settles_of_same hget rfl ⟨rfl, rfl, rfl⟩ hc rfl, fun _ _ _ => rfl⟩

theorem reconcileRobinhoodSettlementFromChain_completes {block : ℕ} {now : ℤ}
    (h : l.reconcileRobinhoodSettlementFromChain id block now = .ok l') : l.Completes id l' := by
  simp only [reconcileRobinhoodSettlementFromChain, bind_eq_ok] at h
  obtain ⟨⟨r, t⟩, hrow, h⟩ := h
  obtain ⟨hget, ht⟩ := robinhoodTx_eq_ok.mp hrow
  dsimp only at h
  by_cases hdone : t.state = .finalized ∧ r.state = .settled
  · rw [if_pos hdone, pure_eq_ok] at h
    exact h ▸ .refl
  rw [if_neg hdone] at h
  simp only [bind_eq_ok, require_eq_ok, exists_unit] at h
  obtain ⟨-, -, -, h⟩ := h
  -- the finality of the operation is recorded first
  obtain ⟨t', ht'⟩ : ∃ t', t' = { t with
    state := .finalized, receiptBlock := some block, finalizedAt := some now } := ⟨_, rfl⟩
  rw [← ht'] at h
  have hrecorded : Settles l (l.setRequest id (r.setRobinhoodTx .settlement t')) :=
    settles_of_same hget rfl ⟨rfl, rfl, rfl⟩ rfl rfl
  obtain ⟨hsettles, hrepeat⟩ := robinhoodSettleConfirmed_completes h
  refine ⟨hrecorded.trans hsettles, fun r₁ hget₁ hc => ?_⟩
  obtain rfl := Option.some.inj (hget.symm.trans hget₁)
  have hget' : (l.setRequest id (r.setRobinhoodTx .settlement t')).requests.get? id =
      some (r.setRobinhoodTx .settlement t') := by
    rw [get?_setRequest hget, if_pos rfl]
  exact (hrepeat _ hget' hc).trans rfl

theorem completes_of_step (hwf : l.Wf) (hop : op.completes = some id) (h : l.step op = some l') :
    l.Completes id l' := by
  rw [step, toOption_eq_some] at h
  cases op <;> first | (obtain rfl := Option.some.inj hop) | cases hop
  case markReleaseConfirmed => exact releaseConfirmed_completes h
  case reconcileReleaseFromChain => exact reconcileReleaseFromChain_completes h
  case markGoldcoinCompletionConfirmed =>
    exact goldcoinCompletionConfirmed_completes
      (fun r hget hsome => (hwf _ r hget).completion (hsome rfl)) h
  case applyCompletionLanded => exact applyCompletionLanded_completes h
  case markRobinhoodPayoutSettled => exact markRobinhoodPayoutSettled_completes h
  case markRobinhoodPayoutCompletionConfirmed =>
    exact markRobinhoodPayoutCompletionConfirmed_completes h
  case markRobinhoodSettlementConfirmed => exact robinhoodSettleConfirmed_completes h
  case reconcileRobinhoodSettlementFromChain =>
    exact reconcileRobinhoodSettlementFromChain_completes h

/-! ## Runs of completions -/

theorem settles_of_run {cs : List Op} (hwf : l.Wf)
    (hcs : ∀ op ∈ cs, op.completes.isSome = true) : Settles l (Run.final step l cs) := by
  induction cs generalizing l with
  | nil => exact .refl
  | cons op cs ih =>
    have hrest : ∀ op ∈ cs, op.completes.isSome = true :=
      fun op h => hcs op (List.mem_cons_of_mem _ h)
    rw [Run.final_cons]
    cases hstep : l.step op with
    | none =>
      rw [Run.advance_of_none hstep]
      exact ih hwf hrest
    | some l₁ =>
      rw [Run.advance_of_some hstep]
      obtain ⟨id, hop⟩ := Option.isSome_iff_exists.mp (hcs op List.mem_cons_self)
      exact (completes_of_step hwf hop hstep).1.trans (ih (hwf.step hstep) hrest)

/-- From any state a run reaches, over any run of completion paths: a request
keeps its terms and stays concluded, every reserve row has moved by what was
concluded in the meantime, each request once, and a path that finds its request
concluded leaves every reserve row as it is. -/
theorem settled_once {ops cs : List Op} (hcs : ∀ op ∈ cs, op.completes.isSome = true) :
    (∀ id r, (after ops).requests.get? id = some r →
      ∃ r', (after (ops ++ cs)).requests.get? id = some r' ∧ Request.SameTerms r r' ∧
        (r.isConcluded = true → r'.isConcluded = true)) ∧
    (∀ d v, (after ops).reserves d = some v → ∃ v', (after (ops ++ cs)).reserves d = some v' ∧
      v'.totalReserveBalance =
        v.totalReserveBalance - ((after (ops ++ cs)).paid d - (after ops).paid d) ∧
      v'.reservedLiquidity =
        v.reservedLiquidity - ((after (ops ++ cs)).paid d - (after ops).paid d) ∧
      v'.pendingObligations =
        v.pendingObligations - ((after (ops ++ cs)).paid d - (after ops).paid d) ∧
      v'.settledLiquidityTotal =
        v.settledLiquidityTotal + ((after (ops ++ cs)).paid d - (after ops).paid d) ∧
      v'.accruedFees = v.accruedFees + ((after (ops ++ cs)).fees d - (after ops).fees d)) ∧
    ∀ op id r l', op.completes = some id → (after (ops ++ cs)).requests.get? id = some r →
      r.isConcluded = true → (after (ops ++ cs)).step op = some l' →
      l'.reserves = (after (ops ++ cs)).reserves := by
  have hend : Run.final step (after ops) cs = after (ops ++ cs) := Run.final_append.symm
  have hwf : (after ops).Wf := wf_after
  have hsettles := settles_of_run hwf hcs
  rw [hend] at hsettles
  exact ⟨hsettles.request, hsettles.reserve, fun op id r l' hop hget hc hstep =>
    (completes_of_step wf_after hop hstep).2 r hget hc⟩

/-- The release is confirmed by polling, then by reconciliation, and the
settlement on Robinhood twice. -/
theorem settled_once_sample :
    let ops : List Op := [.configureReserve .solanaReserve 5000 0,
      .foldRobinhoodDeposit sampleObservation sampleAmounts (some [2]) true none 100,
      .recordReleaseSubmitted 1 77]
    let cs : List Op := [.markReleaseConfirmed 1, .reconcileReleaseFromChain 1,
      .markRobinhoodSettlementConfirmed 1, .markRobinhoodSettlementConfirmed 1]
    (after (ops ++ cs)).paid .solanaReserve - (after ops).paid .solanaReserve = 1000 ∧
      ∀ v, (after ops).reserves .solanaReserve = some v →
        ∃ v', (after (ops ++ cs)).reserves .solanaReserve = some v' ∧
          v'.totalReserveBalance = v.totalReserveBalance - 1000 := by
  intro ops cs
  have hpaid : (after (ops ++ cs)).paid .solanaReserve - (after ops).paid .solanaReserve = 1000 := by
    decide
  refine ⟨hpaid, fun v hv => ?_⟩
  obtain ⟨v', hv', htotal, -⟩ := (@settled_once ops cs (by decide)).2.1 .solanaReserve v hv
  exact ⟨v', hv', hpaid ▸ htotal⟩

end Ledger

end Service
