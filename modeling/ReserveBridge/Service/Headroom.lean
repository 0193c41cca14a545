-- SUMMARY: Reserve headroom: an operation that reserves liquidity ends within the balance of its reserve, and with the admission buffer on top where the gates ask for one.
import ReserveBridge.Service.Ledger.Effects

/-!
# Reserve headroom

Every admission compares the amount it is about to reserve with the headroom of
the reserve, and the folds and resumptions leave the buffer above it. A deposit
that is refused moves the gate of the liquidity buffer at most.
-/

namespace Service
open Guard

/-! ## Reserve rows -/

namespace Reserve

/-- The reserve covers its minimum and what is reserved. -/
def Covered (v : Reserve) : Prop :=
  v.protectedMinimum + v.reservedLiquidity ≤ v.totalReserveBalance

/-- The same, with the admission buffer on top. -/
def Buffered (v : Reserve) : Prop :=
  0 < v.admissionBuffer →
    v.protectedMinimum + v.reservedLiquidity + v.admissionBuffer ≤ v.totalReserveBalance

/-- The subtraction of the headroom does not wrap. -/
def InRange (v : Reserve) : Prop :=
  v.protectedMinimum + v.reservedLiquidity ≤ v.totalReserveBalance + 2 ^ 63

/-- All but the gate of the liquidity buffer is the same. -/
def GateOnly (v v' : Reserve) : Prop :=
  v' = { v with liquidityAdmissionClosed := v'.liquidityAdmissionClosed }

instance (v : Reserve) : Decidable v.Covered := inferInstanceAs (Decidable (_ ≤ _))

theorem GateOnly.refl {v : Reserve} : GateOnly v v := rfl

end Reserve

namespace Reserve

variable {v v' : Reserve} {n : ℤ}

theorem headroom_le (h : v.InRange) :
    v.headroom ≤ v.totalReserveBalance - v.protectedMinimum - v.reservedLiquidity := by
  rw [headroom_eq]
  unfold InRange at h
  exact asI64_le (by omega)

/-- What fits in the headroom can be reserved. -/
theorem covered_of_le_headroom (h : v.InRange) (hn : n ≤ v.headroom) :
    v.protectedMinimum + (v.reservedLiquidity + n) ≤ v.totalReserveBalance := by
  have hroom := headroom_le h
  omega

/-- What leaves the buffer in the headroom can be reserved below the buffer. -/
theorem buffered_of_le_headroom (h : v.InRange) (hn : n ≤ v.headroom)
    (hbuffer : v.admissionBuffer ≤ asI64 (v.headroom - n)) :
    v.protectedMinimum + (v.reservedLiquidity + n) + v.admissionBuffer ≤ v.totalReserveBalance := by
  have hroom := headroom_le h
  have hrest : asI64 (v.headroom - n) ≤ v.headroom - n := asI64_le (by omega)
  omega

end Reserve

namespace Ledger

variable {l l' : Ledger} {d e : ReserveDirection} {v : Reserve} {n : ℤ} {id : ℕ} {r : Request}

/-! ## What an admission does to a row -/

/-- No row changed but for its gate, or one did, and is covered. -/
def Admits (buffered : Bool) (l l' : Ledger) : Prop :=
  ∀ d v, l.reserves d = some v → ∃ v', l'.reserves d = some v' ∧
    (v.GateOnly v' ∨ (v'.Covered ∧ (buffered = true → v'.Buffered)))

theorem Admits.refl {buffered : Bool} : Admits buffered l l :=
  fun _ v hv => ⟨v, hv, .inl .refl⟩

/-- The gate of the buffer is the only column its evaluation writes. -/
theorem evaluateLiquidityGate_gateOnly (hv : l.reserves e = some v) :
    ∃ v', (l.evaluateLiquidityGate d).reserves e = some v' ∧ v.GateOnly v' := by
  rw [evaluateLiquidityGate, reserves_updateReserve]
  by_cases he : e = d
  · subst he
    rw [if_pos rfl, hv]
    exact ⟨_, rfl, rfl⟩
  · rw [if_neg he]
    exact ⟨v, hv, .refl⟩

/-- A reservation that fits. -/
theorem admits_addReserved (hrange : ∀ d v, l.reserves d = some v → v.InRange)
    (hv : l.reserves d = some v) (hn : n ≤ v.headroom) (hreserves : l'.reserves = l.reserves) :
    Admits false l (l'.addReserved d n) := by
  intro e w hw
  rw [addReserved, reserves_updateReserve, hreserves]
  by_cases he : e = d
  · subst he
    obtain rfl := Option.some.inj (hv.symm.trans hw)
    rw [if_pos rfl, hv]
    exact ⟨_, rfl, .inr ⟨v.covered_of_le_headroom (hrange e v hv) hn, fun h => by cases h⟩⟩
  · rw [if_neg he]
    exact ⟨w, hw, .inl .refl⟩

/-- A reservation that fits, with its obligation, after the gate was evaluated
or not. -/
theorem admits_addObligation {v' : Reserve} (hv : l'.reserves d = some v') (hrange : v'.InRange)
    (hn : n ≤ v'.headroom)
    (hbuffer : 0 < v'.admissionBuffer → v'.admissionBuffer ≤ asI64 (v'.headroom - n))
    (hgate : ∀ e v, l.reserves e = some v → ∃ w, l'.reserves e = some w ∧ v.GateOnly w) :
    Admits true l (l'.addObligation d n) := by
  intro e w hw
  rw [addObligation, reserves_updateReserve]
  by_cases he : e = d
  · subst he
    rw [if_pos rfl, hv]
    exact ⟨_, rfl, .inr ⟨v'.covered_of_le_headroom hrange hn, fun _ hpos =>
      v'.buffered_of_le_headroom hrange hn (hbuffer hpos)⟩⟩
  · rw [if_neg he]
    obtain ⟨w', hw', h⟩ := hgate e w hw
    exact ⟨w', hw', .inl h⟩

/-! ## The admissions -/

theorem createRequestFrom_admits {d : Direction} {a : RequestAmounts} {recipient : Bytes}
    {requester wallet : Option Bytes} {ttl now : ℤ}
    (hrange : ∀ d v, l.reserves d = some v → v.InRange)
    (h : l.createRequestFrom d a recipient requester wallet ttl now = .ok l') :
    Admits false l l' := by
  obtain rfl | ⟨r, v, -, rfl, -, -, -, -, -, -, hv, hroom, rfl⟩ := createRequestFrom_cases h
  · exact .refl
  · exact admits_addReserved hrange hv hroom rfl

/-- The gates that admit a deposit saw room for it. -/
theorem room_of_blocker {g : InboundAdmissionGates} {limits : RouteWalletEligibility}
    (h : g.blocker n limits = none) :
    n ≤ g.confirmedHeadroom ∧
      (0 < g.admissionBuffer → g.admissionBuffer ≤ asI64 (g.confirmedHeadroom - n)) := by
  unfold InboundAdmissionGates.blocker at h
  split_ifs at h with h₁ h₂ h₃ h₄ h₅ h₆ h₇ h₈
  rw [not_or, not_not] at h₇
  refine ⟨not_lt.mp h₈, fun hpos => ?_⟩
  obtain hnone | hok := h₇.2
  · omega
  · exact hok

theorem foldDeposit_admits {d : Direction} {a : RequestAmounts} {quoted : Bool}
    {src : DepositSource} {destination : Option Bytes} {recipient : Bytes} {routeOpen : Bool}
    {refusal : Option FoldRefusal} {now : ℤ}
    (hrange : ∀ d v, l.reserves d = some v → v.InRange)
    (h : l.foldDeposit d a quoted src destination recipient routeOpen refusal now = .ok l') :
    Admits true l l' := by
  obtain ⟨r, v, -, rfl, -, -, -, -, -, -, -, -, -, hv, hrow⟩ := foldDeposit_cases h
  have hgate := fun e (w : Reserve) => @evaluateLiquidityGate_gateOnly l
    r.direction.destinationReserve e w
  obtain ⟨-, hblocker, -, rfl⟩ | ⟨-, -, rfl⟩ := hrow
  · -- the row the gates read is the old one but for its own gate
    obtain ⟨w, hw⟩ : ∃ w, l.reserves r.direction.destinationReserve = some w := by
      rw [← Option.isSome_iff_exists, ← isSome_updateReserve]
      exact Option.isSome_iff_exists.mpr ⟨v, hv⟩
    obtain ⟨w', hw', hsame⟩ := hgate _ w hw
    obtain rfl := Option.some.inj (hw'.symm.trans hv)
    have hrange' : w'.InRange := by
      rw [hsame]
      exact hrange _ w hw
    obtain ⟨hroom, hbuffer⟩ := room_of_blocker hblocker
    refine admits_addObligation ?_ hrange' hroom hbuffer fun e u hu => ?_
    · exact hv
    · exact hgate e u hu
  · intro e w hw
    obtain ⟨w', hw', hsame⟩ := hgate e w hw
    exact ⟨w', hw', .inl hsame⟩

theorem foldSolDeposit_admits {index : ℕ} {a : RequestAmounts} {requester recipient : Bytes}
    {refusal : Option FoldRefusal} {now : ℤ}
    (hrange : ∀ d v, l.reserves d = some v → v.InRange)
    (h : l.foldSolDeposit index a requester recipient refusal now = .ok l') : Admits true l l' := by
  simp only [foldSolDeposit, bind_eq_ok] at h
  obtain ⟨quoted, -, h⟩ := h
  split_ifs at h with hfolded
  · exact pure_eq_ok.mp h ▸ .refl
  · exact foldDeposit_admits hrange h

theorem foldSolDepositToRobinhood_admits {index : ℕ} {a : RequestAmounts} {requester : Bytes}
    {evm : Option Bytes} {raw : Bytes} {routeOpen : Bool} {refusal : Option FoldRefusal} {now : ℤ}
    (hrange : ∀ d v, l.reserves d = some v → v.InRange)
    (h : l.foldSolDepositToRobinhood index a requester evm raw routeOpen refusal now = .ok l') :
    Admits true l l' := by
  simp only [foldSolDepositToRobinhood, bind_eq_ok, require_eq_ok, exists_unit] at h
  obtain ⟨-, quoted, -, h⟩ := h
  split_ifs at h with hfolded
  · exact pure_eq_ok.mp h ▸ .refl
  · exact foldDeposit_admits hrange h

theorem foldRobinhoodDeposit_admits {obs : RobinhoodObservation} {a : RequestAmounts}
    {destination : Option Bytes} {routeOpen : Bool} {refusal : Option FoldRefusal} {now : ℤ}
    (hrange : ∀ d v, l.reserves d = some v → v.InRange)
    (h : l.foldRobinhoodDeposit obs a destination routeOpen refusal now = .ok l') :
    Admits true l l' := by
  simp only [foldRobinhoodDeposit, bind_eq_ok, require_eq_ok, exists_unit] at h
  obtain ⟨-, -, quoted, -, h⟩ := h
  by_cases hfolded : l.RobinhoodObligationFolded obs.sourceContract obs.obligationIndex
  · rw [if_pos hfolded, pure_eq_ok] at h
    exact h ▸ .refl
  · rw [if_neg hfolded] at h
    simp only [bind_eq_ok, require_eq_ok, exists_unit] at h
    exact foldDeposit_admits hrange h.2

theorem resumeManualReview_admits {expected : Direction} {now : ℤ}
    (hrange : ∀ d v, l.reserves d = some v → v.InRange)
    (h : l.resumeManualReview expected id now = .ok l') : Admits true l l' := by
  unfold resumeManualReview at h
  have inbound : ∀ expected : Direction, expected.destinationIsGoldcoin →
      l.resumeManualReviewInbound expected id now = .ok l' → Admits true l l' := by
    intro _ hexpected h
    obtain rfl | ⟨r, v, hr, -, -, rfl⟩ := resumeManualReviewInbound_cases hexpected h
    · exact .refl
    · exact admits_addObligation hr.row (hrange _ v hr.row) hr.headroom hr.buffer
        fun e w hw => ⟨w, hw, .refl⟩
  have cross : ∀ expected : Direction,
      l.resumeManualReviewCrossRoute expected id now = .ok l' → Admits true l l' := by
    intro _ h
    obtain rfl | ⟨r, v, hr, -, -, rfl⟩ := resumeManualReviewCrossRoute_cases h
    · exact .refl
    · have hgate := fun e (w : Reserve) => @evaluateLiquidityGate_gateOnly l
        r.direction.destinationReserve e w
      obtain ⟨v', hv', hsame⟩ := hgate _ v hr.row
      refine admits_addObligation hv' ?_ ?_ ?_ fun e w hw => hgate e w hw
      · rw [hsame]
        exact hrange _ v hr.row
      · rw [hsame]
        exact hr.headroom
      · rw [hsame]
        exact hr.buffer
  cases expected with
  | solToGlc => exact inbound _ (by decide) h
  | rhnToGlc => exact inbound _ (by decide) h
  | solToRhn => exact cross _ h
  | rhnToSol => exact cross _ h
  | glcToSol => cases h
  | glcToRhn => cases h

theorem reserves_recordOperatorDecision {decision : OperatorDecision} {note : String}
    {emergency : Bool} {now : ℤ}
    (h : l.recordOperatorDecision id decision note emergency now = .ok l') :
    l'.reserves = l.reserves := by
  simp only [recordOperatorDecision, bind_eq_ok, require_eq_ok, exists_unit, pure_eq_ok,
    refuseUnlessHoldable_eq_ok] at h
  obtain ⟨-, -, -, r, -, -, -, -, rfl⟩ := h
  rfl

theorem processHeldManualReview_admits {note : String} {now : ℤ}
    (hrange : ∀ d v, l.reserves d = some v → v.InRange)
    (h : l.processHeldManualReview id note now = .ok l') : Admits true l l' := by
  simp only [processHeldManualReview, bind_eq_ok, request_eq_ok] at h
  obtain ⟨decided, hdecided, r, -, hresumed⟩ := h
  have hsame := reserves_recordOperatorDecision hdecided
  have hadmits := resumeManualReview_admits (by rwa [hsame]) hresumed
  intro d v hv
  exact hadmits d v (hsame ▸ hv)

/-- An observed deposit changes no reserve row, ends within the balance, or
lowers what its request reserves. -/
theorem recordGlcDepositObserved_admits {dep : GlcDeposit} {lock : QuoteLock} {now : ℤ}
    {outcome : GlcObservationOutcome} (hrange : ∀ d v, l.reserves d = some v → v.InRange)
    (h : l.recordGlcDepositObserved id dep lock now = .ok (outcome, l')) :
    ∀ d v, l.reserves d = some v → ∃ v', l'.reserves d = some v' ∧
      (v' = v ∨ v'.Covered ∨ v'.reservedLiquidity < v.reservedLiquidity) := by
  intro d v hv
  obtain ⟨rfl, -⟩ | ⟨r, hget, hsource, -, ⟨hexpired, rfl⟩ | ⟨r₀, n, l₀, l₁, r₁, r', k, h₀, hl₀, h₁,
    hobs, hnet, rfl, hl₁⟩⟩ := recordGlcDepositObserved_cases h
  · exact ⟨v, hv, .inl rfl⟩
  · exact ⟨v, hv, .inl rfl⟩
  show ∃ v', l₁.reserves d = some v' ∧ _
  -- the readmission reserves within the headroom
  obtain ⟨v₀, hv₀, hcase₀⟩ : ∃ v₀, l₀.reserves d = some v₀ ∧ (v₀ = v ∨ v₀.Covered) := by
    obtain ⟨rfl, -⟩ | ⟨rfl, w, hw, hroom⟩ := hl₀
    · exact ⟨v, hv, .inl rfl⟩
    · rw [addReserved, reserves_updateReserve]
      by_cases hd : d = r.direction.destinationReserve
      · subst hd
        obtain rfl := Option.some.inj (hw.symm.trans hv)
        rw [if_pos rfl, hv]
        exact ⟨_, rfl, .inr (w.covered_of_le_headroom (hrange _ w hv) hroom)⟩
      · rw [if_neg hd]
        exact ⟨v, hv, .inl rfl⟩
  -- and so does the lock, when it reserves at all
  obtain ⟨rfl, -⟩ | ⟨rfl, w, hw, hroom⟩ := hl₁
  · exact ⟨v₀, hv₀, hcase₀.imp_right .inl⟩
  rw [addReserved, reserves_updateReserve]
  by_cases hd : d = r.direction.destinationReserve
  swap
  · rw [if_neg hd]
    exact ⟨v₀, hv₀, hcase₀.imp_right .inl⟩
  subst hd
  obtain rfl := Option.some.inj (hw.symm.trans hv₀)
  rw [if_pos rfl, hw]
  have hrange₀ : w.InRange := by
    obtain rfl | hcovered := hcase₀
    · exact hrange _ w hv
    · unfold Reserve.Covered at hcovered
      unfold Reserve.InRange
      omega
  refine ⟨_, rfl, ?_⟩
  obtain hneg | rfl | hpos := lt_trichotomy k 0
  · obtain rfl | hcovered := hcase₀
    · right; right
      dsimp only
      omega
    · right; left
      unfold Reserve.Covered at hcovered ⊢
      dsimp only
      omega
  · simpa using hcase₀.imp_right .inl
  · exact .inr (.inl (w.covered_of_le_headroom hrange₀ (hroom hpos)))

end Ledger

/-! ## Every admission -/

namespace Op

/-- The operations that reserve liquidity for a request. -/
def admits : Op → Bool
  | .createRequest _ _ _ _ _ _ _ | .recordGlcDepositObserved _ _ _ _
  | .foldSolDeposit _ _ _ _ _ _ | .foldSolDepositToRobinhood _ _ _ _ _ _ _ _
  | .foldRobinhoodDeposit _ _ _ _ _ _ | .resumeManualReview _ _ _
  | .processHeldManualReview _ _ _ => true
  | _ => false

/-- Those that keep the admission buffer. -/
def isBuffered : Op → Bool
  | .foldSolDeposit _ _ _ _ _ _ | .foldSolDepositToRobinhood _ _ _ _ _ _ _ _
  | .foldRobinhoodDeposit _ _ _ _ _ _ | .resumeManualReview _ _ _
  | .processHeldManualReview _ _ _ => true
  | _ => false

end Op

namespace Ledger

variable {l l' : Ledger} {op : Op} {ops : List Op}

/-- In every state a run reaches whose headrooms do not wrap, an operation that
reserves liquidity leaves a reserve row as it is, the gate of the liquidity
buffer aside, or ends with the balance above minimum and reservations, and with
the buffer on top where one is kept. An observed deposit may also lower what was
reserved for it. -/
theorem headroom_kept (hop : op.admits = true)
    (hrange : ∀ d v, (after ops).reserves d = some v → v.InRange)
    (h : (after ops).step op = some l') :
    ∀ d v, (after ops).reserves d = some v → ∃ v', l'.reserves d = some v' ∧
      (v.GateOnly v' ∨ (v'.Covered ∧ (op.isBuffered = true → v'.Buffered)) ∨
        (v'.reservedLiquidity < v.reservedLiquidity ∧
          ∃ id dep lock now, op = .recordGlcDepositObserved id dep lock now)) := by
  intro d v hv
  rw [step, toOption_eq_some] at h
  have admitted : Admits op.isBuffered (after ops) l' → ∃ v', l'.reserves d = some v' ∧
      (v.GateOnly v' ∨ (v'.Covered ∧ (op.isBuffered = true → v'.Buffered)) ∨
        (v'.reservedLiquidity < v.reservedLiquidity ∧
          ∃ id dep lock now, op = .recordGlcDepositObserved id dep lock now)) := by
    intro hadmits
    obtain ⟨v', hv', hcase⟩ := hadmits d v hv
    exact ⟨v', hv', hcase.imp_right .inl⟩
  cases op <;> try cases hop
  case createRequest => exact admitted (createRequestFrom_admits hrange h)
  case foldSolDeposit => exact admitted (foldSolDeposit_admits hrange h)
  case foldSolDepositToRobinhood => exact admitted (foldSolDepositToRobinhood_admits hrange h)
  case foldRobinhoodDeposit => exact admitted (foldRobinhoodDeposit_admits hrange h)
  case resumeManualReview => exact admitted (resumeManualReview_admits hrange h)
  case processHeldManualReview => exact admitted (processHeldManualReview_admits hrange h)
  case recordGlcDepositObserved id dep lock now =>
    obtain ⟨⟨outcome, l₁⟩, hobserved, rfl⟩ := map_eq_ok.mp h
    obtain ⟨v', hv', rfl | hcovered | hlowered⟩ :=
      recordGlcDepositObserved_admits hrange hobserved d v hv
    · exact ⟨v', hv', .inl .refl⟩
    · exact ⟨v', hv', .inr (.inl ⟨hcovered, fun h => by cases h⟩)⟩
    · exact ⟨v', hv', .inr (.inr ⟨hlowered, id, dep, lock, now, rfl⟩)⟩

/-- The first deposit of a reserve of 5000 above a minimum of 50. -/
theorem headroom_kept_sample :
    ∃ l' v v', (after [.configureReserve .solanaReserve 5000 50]).step
        (.foldRobinhoodDeposit sampleObservation sampleAmounts (some [2]) true none 100) = some l' ∧
      (after [.configureReserve .solanaReserve 5000 50]).reserves .solanaReserve = some v ∧
      l'.reserves .solanaReserve = some v' ∧ (v.GateOnly v' ∨ v'.Covered) := by
  have hrow : ((after [.configureReserve .solanaReserve 5000 50]).reserves .solanaReserve).map
      (fun v => (v.totalReserveBalance, v.protectedMinimum, v.reservedLiquidity)) =
        some (5000, 50, 0) := by decide
  have hrange : ∀ d v, (after [.configureReserve .solanaReserve 5000 50]).reserves d = some v →
      v.InRange := by
    intro d w hw
    cases d with
    | solanaReserve =>
      rw [hw] at hrow
      simp only [Option.map_some, Option.some.injEq, Prod.mk.injEq] at hrow
      unfold Reserve.InRange
      omega
    | goldcoinReserve => cases hw
    | robinhoodReserve => cases hw
  have haccepted : ((after [.configureReserve .solanaReserve 5000 50]).step
      (.foldRobinhoodDeposit sampleObservation sampleAmounts (some [2]) true none 100)).isSome := by
    decide
  obtain ⟨l', h⟩ := Option.isSome_iff_exists.mp haccepted
  obtain ⟨v, hv, -⟩ := Option.map_eq_some_iff.mp hrow
  obtain ⟨v', hv', hcase⟩ := headroom_kept rfl hrange h .solanaReserve v hv
  refine ⟨l', v, v', h, hv, hv', ?_⟩
  obtain hgate | hcovered | ⟨-, _, _, _, _, hop⟩ := hcase
  · exact .inl hgate
  · exact .inr hcovered.1
  · cases hop

/-! ### A reserve below its minimum -/

/-- A reserve that was admitted to and then lost most of its balance. -/
def drainedRun : List Op :=
  [.configureReserve .solanaReserve 5000 50,
    .setting (.admissionBuffer .solanaReserve 10 20),
    .foldRobinhoodDeposit sampleObservation sampleAmounts (some [2]) true none 100,
    .refreshReserveBalance .solanaReserve 500]

/-- The next deposit, from another wallet. -/
def nextFold : Op :=
  .foldRobinhoodDeposit { sampleObservation with obligationIndex := 1, depositor := [3], logIndex := 1 }
    sampleAmounts (some [4]) true none 200

/-- A reserve whose minimum and reservations exceed its balance by more than an
`i64` holds. -/
def wrappedRun : List Op :=
  [.configureReserve .solanaReserve (2 ^ 63 - 1) 1,
    .foldRobinhoodDeposit sampleObservation
      { sampleAmounts with netDestination := 2 ^ 63 - 2000 } (some [2]) true none 100,
    .refreshReserveBalance .solanaReserve 1, .configureReserve .solanaReserve 1 (2 ^ 63 - 2000)]

def nextRequest : Op := .createRequest .glcToSol sampleAmounts [5] none none 600 200

/-- A refused deposit closes the gate of a reserve that is below its minimum,
and a wrapped headroom admits a request there, whose sum still fits. -/
theorem headroom_not_kept :
    (((after drainedRun).step nextFold).isSome = true ∧
      (after (drainedRun ++ [nextFold])).reserves .solanaReserve ≠
        (after drainedRun).reserves .solanaReserve ∧
      ((after (drainedRun ++ [nextFold])).reserves .solanaReserve).any (fun v => ¬ v.Covered) = true) ∧
    ((after wrappedRun).step nextRequest).isSome = true ∧
      ((after (wrappedRun ++ [nextRequest])).reserves .solanaReserve).any
        (fun v => ¬ v.Covered ∧ v.reservedLiquidity = 2 ^ 63 - 1000) = true := by
  decide

end Ledger

end Service
