-- SUMMARY: The source outpoints of requests: what every operation but those of the indexer leaves of a deposit, that an observation takes a row without one, and that no two requests share an outpoint.
import ReserveBridge.Service.Goldcoin.HashChain

/-!
# Source outpoints

A row names the output that paid it from the observation of its deposit on. The
observation, a fold and a rollback are what writes it.
-/

namespace Service
open Guard

/-! ## The deposit of a row -/

/-- The states of a Goldcoin-sourced request without a deposit. -/
def RequestState.isUnfunded : RequestState → Bool
  | liquidityReserved | awaitingDeposit | expired | cancelled => true
  | _ => false

/-- The states a deposit is taken in. -/
def RequestState.isAwaiting : RequestState → Bool
  | awaitingDeposit | expired => true
  | _ => false

theorem RequestState.isUnfunded_of_isAwaiting {s : RequestState} (h : s.isAwaiting = true) :
    s.isUnfunded = true := by
  cases s <;> first | rfl | cases h

/-- The source outpoint. -/
def Request.PaidBy (r : Request) (txid : Txid) (vout : ℕ) : Prop :=
  r.sourceTxid = some txid ∧ r.sourceVout = some vout

/-- What every operation but those of the indexer leaves of a deposit. -/
structure KeepsDeposit (r r' : Request) : Prop where
  direction : r'.direction = r.direction
  txid : r'.sourceTxid = r.sourceTxid
  vout : r'.sourceVout = r.sourceVout
  block : r'.sourceBlockHeight = r.sourceBlockHeight
  observed : r'.state.isObserved = true → r.state.isObserved = true
  unfunded : r'.state.isUnfunded = true → r.state.isUnfunded = true
  awaiting : r'.state.isAwaiting = true → r.state.isAwaiting = true

namespace KeepsDeposit

variable {r r₁ r' : Request}

theorem refl : KeepsDeposit r r := ⟨rfl, rfl, rfl, rfl, id, id, id⟩

theorem trans (h₁ : KeepsDeposit r r₁) (h : KeepsDeposit r₁ r') : KeepsDeposit r r' where
  direction := h.direction.trans h₁.direction
  txid := h.txid.trans h₁.txid
  vout := h.vout.trans h₁.vout
  block := h.block.trans h₁.block
  observed := h₁.observed ∘ h.observed
  unfunded := h₁.unfunded ∘ h.unfunded
  awaiting := h₁.awaiting ∘ h.awaiting

/-- The columns of the deposit are left, and the state is one of a funded request
that is final or parked. -/
theorem of_state (h : r'.direction = r.direction ∧ r'.sourceTxid = r.sourceTxid ∧
    r'.sourceVout = r.sourceVout ∧ r'.sourceBlockHeight = r.sourceBlockHeight)
    (hstate : r'.state.isObserved = false ∧ r'.state.isUnfunded = false) : KeepsDeposit r r' where
  direction := h.1
  txid := h.2.1
  vout := h.2.2.1
  block := h.2.2.2
  observed h := by rw [hstate.1] at h; cases h
  unfunded h := by rw [hstate.2] at h; cases h
  awaiting h := by rw [RequestState.isUnfunded_of_isAwaiting h] at hstate; cases hstate.2

end KeepsDeposit

theorem Transition.keepsDeposit {op : Op} {id : ℕ} {r r' : Request} {δ : ℤ × ℤ}
    (h : Transition op id r r' δ) (hop : op.writesDeposit = false) : KeepsDeposit r r' := by
  cases h with
  | lateDeposit _ _ h => rw [hop] at h; cases h
  | observed h => rw [h] at hop; cases hop
  | reorged _ h => rw [hop] at h; cases h
  | expired h =>
    exact ⟨rfl, rfl, rfl, rfl, nofun, fun _ => by rw [h]; rfl, fun _ => by rw [h]; rfl⟩
  | cancelled h =>
    exact ⟨rfl, rfl, rfl, rfl, nofun, fun _ => by rcases h with h | h <;> rw [h] <;> rfl, nofun⟩
  | confirmations | reviewed | releaseAttested | payoutBuilt | payoutConfirmations
  | completionSubmitted | goldcoinRefundSigned | robinhoodTx => exact ⟨rfl, rfl, rfl, rfl, fun h => h, fun h => h, fun h => h⟩
  | solanaRefundBroadcast hf h =>
    split_ifs with hstate
    · exact .of_state ⟨rfl, rfl, rfl, rfl⟩ ⟨rfl, rfl⟩
    · exact ⟨rfl, rfl, rfl, rfl, fun h => h, fun h => h, fun h => h⟩
  | releaseConfirmed => split_ifs <;> exact .of_state ⟨rfl, rfl, rfl, rfl⟩ ⟨rfl, rfl⟩
  | robinhoodPayoutSettled => split_ifs <;> exact .of_state ⟨rfl, rfl, rfl, rfl⟩ ⟨rfl, rfl⟩
  | _ => exact .of_state ⟨rfl, rfl, rfl, rfl⟩ ⟨rfl, rfl⟩

namespace Effect

variable {op : Op} {l l' : Ledger}

/-- A row that is there stays, with its deposit. -/
theorem keepsDeposit (h : Effect op l l') (hop : op.writesDeposit = false) {id : ℕ} {r : Request}
    (hget : l.requests.get? id = some r) :
    ∃ r', l'.requests.get? id = some r' ∧ KeepsDeposit r r' := by
  obtain ⟨r', hget', hmoves⟩ := h.row hget
  refine ⟨r', hget', ?_⟩
  clear hget'
  induction hmoves with
  | refl => exact .refl
  | tail _ hmove ih =>
    obtain ⟨δ, hmove⟩ := hmove
    exact ih.trans (hmove.keepsDeposit hop)

/-- An operation that records no request leaves the other ids free. -/
theorem get?_eq_none (h : Effect op l l') (hop : op.recorded = none) {id : ℕ}
    (hget : l.requests.get? id = none) : l'.requests.get? id = none := by
  induction h with
  | idle requests | configured requests => rwa [requests]
  | inserted _ _ _ _ _ _ recorded =>
    rw [hop] at recorded
    cases recorded
  | moved found h requests =>
    rw [requests, Store.get?_modify]
    split_ifs
    · rw [hget]
      rfl
    · exact hget
  | seq _ _ _ ih₁ ih => exact ih (ih₁ hget)

end Effect

namespace Ledger

variable {l l' : Ledger} {op : Op} {next : ℤ}

/-! ## Rows -/

/-- A row whose deposit was observed is sourced from Goldcoin, in a block up to
some height. One that has no deposit yet names no outpoint. -/
structure DepositRow (next : ℤ) (r : Request) : Prop where
  observed : r.state.isObserved = true →
    r.direction.sourceIsGoldcoin ∧ ∃ h, r.sourceBlockHeight = some h ∧ h ≤ next
  unfunded : r.direction.sourceIsGoldcoin → r.state.isUnfunded = true → r.sourceTxid = none
  paired : r.direction.sourceIsGoldcoin → r.sourceVout.isSome = r.sourceTxid.isSome

theorem DepositRow.mono {next' : ℤ} {r : Request} (h : DepositRow next r) (hle : next ≤ next') :
    DepositRow next' r where
  observed hstate :=
    have ⟨hsource, height, hblock, hheight⟩ := h.observed hstate
    ⟨hsource, height, hblock, hheight.trans hle⟩
  unfunded := h.unfunded
  paired := h.paired

theorem DepositRow.keeps {r r' : Request} (h : DepositRow next r) (hkeeps : KeepsDeposit r r') :
    DepositRow next r' where
  observed hstate := by
    rw [hkeeps.direction, hkeeps.block]
    exact h.observed (hkeeps.observed hstate)
  unfunded hsource hstate := by
    rw [hkeeps.txid]
    exact h.unfunded (by rwa [← hkeeps.direction]) (hkeeps.unfunded hstate)
  paired hsource := by
    rw [hkeeps.txid, hkeeps.vout]
    exact h.paired (by rwa [← hkeeps.direction])

theorem DepositRow.of_inserted {r : Request} {δ : ℤ × ℤ} (h : Inserted r δ) :
    DepositRow next r where
  observed hstate := by
    cases h with
    | awaiting _ state => rw [state] at hstate; cases hstate
    | admitted _ _ state => rw [state] at hstate; cases hstate
    | parked _ _ state => rw [state] at hstate; cases hstate
  unfunded hsource _ := by
    cases h with
    | awaiting _ _ source => exact source.1
    | admitted _ source => exact absurd hsource source
    | parked _ source => exact absurd hsource source
  paired hsource := by
    cases h with
    | awaiting _ _ source => rw [source.1, source.2]
    | admitted _ source => exact absurd hsource source
    | parked _ source => exact absurd hsource source

/-! ## Outpoints -/

/-- The unique index on the source outpoint. -/
def OutpointsUnique (l : Ledger) : Prop :=
  ∀ id id' r r' txid vout, l.requests.get? id = some r → l.requests.get? id' = some r' →
    r.PaidBy txid vout → r'.PaidBy txid vout → id = id'

/-- Every deposit was there before. -/
theorem OutpointsUnique.of_kept (h : l.OutpointsUnique)
    (hkept : ∀ id r', l'.requests.get? id = some r' → ∃ r, l.requests.get? id = some r ∧
      ∀ txid vout, r'.PaidBy txid vout → r.PaidBy txid vout) : l'.OutpointsUnique := by
  intro id id' r r' txid vout hget hget' hpaid hpaid'
  obtain ⟨x, hx, hxpaid⟩ := hkept id r hget
  obtain ⟨x', hx', hxpaid'⟩ := hkept id' r' hget'
  exact h id id' x x' txid vout hx hx' (hxpaid _ _ hpaid) (hxpaid' _ _ hpaid')

theorem not_paidBy_of_free {own : Option ℕ} {txid : Txid} {vout id : ℕ} {r : Request}
    (hfree : ¬ l.SourceOutpointTaken own txid vout) (hget : l.requests.get? id = some r)
    (hne : some id ≠ own) : ¬ r.PaidBy txid vout := by
  intro hpaid
  exact hfree ⟨(id, r), Store.mem_of_get? hget, hne, hpaid⟩

/-- A new row has an outpoint that is free, or none. -/
theorem OutpointsUnique.push {r : Request} (h : l.OutpointsUnique)
    (hrequests : l'.requests = l.requests.push r)
    (hfree : ∀ txid vout, r.PaidBy txid vout → ¬ l.SourceOutpointTaken none txid vout) :
    l'.OutpointsUnique := by
  intro id id' x x' txid vout hget hget' hpaid hpaid'
  rw [hrequests, Store.get?_push] at hget hget'
  split_ifs at hget with hid
  · obtain rfl := Option.some.inj hget
    split_ifs at hget' with hid'
    · rw [hid, hid']
    · exact absurd hpaid' (not_paidBy_of_free (hfree _ _ hpaid) hget' (by simp))
  · split_ifs at hget' with hid'
    · obtain rfl := Option.some.inj hget'
      exact absurd hpaid (not_paidBy_of_free (hfree _ _ hpaid') hget (by simp))
    · exact h id id' x x' txid vout hget hget' hpaid hpaid'

theorem OutpointsUnique.effect (h : l.OutpointsUnique) (heffect : Effect op l l')
    (hop : op.writesDeposit = false) (hrecorded : op.recorded = none) : l'.OutpointsUnique := by
  induction heffect with
  | idle requests | configured requests => rwa [OutpointsUnique, requests]
  | inserted _ _ _ _ _ _ recorded =>
    rw [hrecorded] at recorded
    cases recorded
  | @moved l l' id r r' δ found hmove requests =>
    refine h.of_kept fun k x hget => ?_
    rw [requests, Store.get?_modify] at hget
    split_ifs at hget with hk
    · subst hk
      rw [found] at hget
      obtain rfl := Option.some.inj hget
      have hkeeps := hmove.keepsDeposit hop
      exact ⟨r, found, fun txid vout hpaid => ⟨hkeeps.txid ▸ hpaid.1, hkeeps.vout ▸ hpaid.2⟩⟩
    · exact ⟨x, hget, fun _ _ hpaid => hpaid⟩
  | seq _ _ _ ih₁ ih => exact ih (ih₁ h)

theorem OutpointsUnique.foldDeposit {d : Direction} {a : RequestAmounts} {quoted : Bool}
    {src : DepositSource} {destination : Option Bytes} {recipient : Bytes} {routeOpen : Bool}
    {refusal : Option FoldRefusal} {now : ℤ} (h : l.OutpointsUnique)
    (hfold : l.foldDeposit d a quoted src destination recipient routeOpen refusal now = .ok l') :
    l'.OutpointsUnique := by
  obtain ⟨r, v, -, rfl, -, -, -, -, -, hfree, htxid, hvout, -, -, hrow⟩ := foldDeposit_cases hfold
  have hrequests : l'.requests = l.requests.push r := by
    rcases hrow with ⟨-, -, -, rfl⟩ | ⟨-, -, rfl⟩ <;> rfl
  refine h.push hrequests fun txid vout hpaid => hfree (txid, vout) ?_
  -- the outpoint of the row is that of the source
  rw [Request.PaidBy, htxid, hvout] at hpaid
  obtain ⟨o, ho, htx⟩ := Option.map_eq_some_iff.mp hpaid.1
  obtain ⟨o', ho', hv⟩ := Option.map_eq_some_iff.mp hpaid.2
  obtain rfl := Option.some.inj (ho.symm.trans ho')
  rw [ho, ← htx, ← hv]
  rfl

/-- No operation but the observation of a deposit names an outpoint that another
row has. -/
theorem OutpointsUnique.step (h : l.OutpointsUnique) (hwf : l.Wf) (hop : op.writesDeposit = false)
    (hstep : l.step op = some l') : l'.OutpointsUnique := by
  have heffect := effect_of_step hwf hstep
  rw [Ledger.step, toOption_eq_some] at hstep
  cases op with
  | createRequest d a recipient requester wallet ttl now =>
    rcases createRequestFrom_cases hstep with rfl | ⟨r, v, -, -, -, hsource, -, -, -, -, -, -, rfl⟩
    · exact h
    · refine h.push (r := r) rfl fun txid vout hpaid => ?_
      rw [Request.PaidBy, hsource.1] at hpaid
      cases hpaid.1
  | foldSolDeposit index a requester recipient refusal now =>
    simp only [run, foldSolDeposit, bind_eq_ok] at hstep
    obtain ⟨quoted, -, hstep⟩ := hstep
    split_ifs at hstep
    · exact pure_eq_ok.mp hstep ▸ h
    · exact h.foldDeposit hstep
  | foldSolDepositToRobinhood index a requester evm raw routeOpen refusal now =>
    simp only [run, foldSolDepositToRobinhood, bind_eq_ok, require_eq_ok, exists_unit] at hstep
    obtain ⟨-, quoted, -, hstep⟩ := hstep
    split_ifs at hstep
    · exact pure_eq_ok.mp hstep ▸ h
    · exact h.foldDeposit hstep
  | foldRobinhoodDeposit obs a destination routeOpen refusal now =>
    simp only [run, foldRobinhoodDeposit, bind_eq_ok, require_eq_ok, exists_unit] at hstep
    obtain ⟨-, -, quoted, -, hstep⟩ := hstep
    by_cases hfolded : l.RobinhoodObligationFolded obs.sourceContract obs.obligationIndex
    · rw [if_pos hfolded, pure_eq_ok] at hstep
      exact hstep ▸ h
    · rw [if_neg hfolded] at hstep
      simp only [bind_eq_ok, require_eq_ok, exists_unit] at hstep
      exact h.foldDeposit hstep.2
  | _ => exact h.effect heffect hop rfl

/-- The rows of the ledger, with the heights of what was observed. -/
structure DepositRows (next : ℤ) (l : Ledger) : Prop where
  wf : l.Wf
  rows : ∀ id r, l.requests.get? id = some r → DepositRow next r
  unique : l.OutpointsUnique

theorem DepositRows.mono {next' : ℤ} (h : DepositRows next l) (hle : next ≤ next') :
    DepositRows next' l := ⟨h.wf, fun id r hget => (h.rows id r hget).mono hle, h.unique⟩

theorem DepositRows.step (h : DepositRows next l) (hop : op.writesDeposit = false)
    (hstep : l.step op = some l') : DepositRows next l' where
  wf := h.wf.step hstep
  rows := (effect_of_step h.wf hstep).forall_rows (fun _ _ _ hi => .of_inserted hi)
    (fun _ _ _ _ ht hr => hr.keeps (ht.keepsDeposit hop)) h.rows
  unique := h.unique.step h.wf hop hstep

/-! ## An observed deposit -/

/-- What an accepted deposit does to the rows. -/
structure Deposited (l : Ledger) (id : ℕ) (dep : GlcDeposit) (l' : Ledger) (r r' : Request) : Prop where
  found : l.requests.get? id = some r
  unfunded : r.state = .awaitingDeposit ∨ r.state = .expired
  free : ¬ l.SourceOutpointTaken (some id) dep.txid dep.vout
  source : r.direction.sourceIsGoldcoin
  direction : r'.direction = r.direction
  paid : r'.PaidBy dep.txid dep.vout
  block : r'.sourceBlockHeight = some dep.blockHeight
  state : r'.state = .confirming ∨ r'.state = .manualReview
  rows : ∀ k, l'.requests.get? k = if k = id then some r' else l.requests.get? k
  vault : l'.vault = l.vault

variable {id : ℕ} {dep : GlcDeposit} {lock : QuoteLock} {now : ℤ} {outcome : GlcObservationOutcome}
  {r : Request}

theorem requests_of_lockReserved {d : ReserveDirection} {k : ℤ} (h : l.LockReserved d k l') :
    l'.requests = l.requests ∧ l'.vault = l.vault := by
  rcases h with ⟨rfl, -⟩ | ⟨rfl, -⟩ <;> exact ⟨rfl, rfl⟩

theorem recordGlcDepositObserved_deposited
    (h : l.recordGlcDepositObserved id dep lock now = .ok (outcome, l')) :
    (l' = l ∧ (outcome = .alreadyRecorded ∨ outcome = .noMatchingRequest)) ∨
      ∃ r r', l.Deposited id dep l' r r' := by
  rcases recordGlcDepositObserved_cases h with hsame | ⟨r, hget, hsource, hfree, hrow⟩
  · exact .inl hsame
  refine .inr ⟨r, ?_⟩
  rcases hrow with ⟨hstate, rfl⟩ | ⟨r₀, n, l₀, l₁, r₁, r', k, hawaiting, hl₀, hlocked, hobs, -, rfl, hl₁⟩
  · refine ⟨_, ⟨hget, .inr hstate, hfree, hsource, ?_, ?_, ?_, ?_, get?_setRequest hget _, rfl⟩⟩
    · rfl
    · exact ⟨rfl, rfl⟩
    · rfl
    · exact .inr rfl
  · have hsame := (hawaiting.rows.trans hlocked.rows).trans hobs.rows
    have hrequests : l₁.requests = l.requests ∧ l₁.vault = l.vault := by
      have h₁ := requests_of_lockReserved hl₁
      rcases hl₀ with ⟨rfl, -⟩ | ⟨rfl, -⟩ <;> exact h₁
    refine ⟨r', ⟨hget, ?_, hfree, hsource, hsame.direction, ⟨hobs.sourceTxid, hobs.sourceVout⟩,
      hobs.sourceBlock.1, hobs.state.imp_right And.left, fun k => ?_, hrequests.2⟩⟩
    · cases hawaiting with
      | awaiting h => exact .inl h
      | readmitted h => exact .inr h
    · have hget₁ : l₁.requests.get? id = some r := by rw [hrequests.1, hget]
      rw [get?_setRequest hget₁, hrequests.1]

/-- An observation that starts from a row without a deposit never says that the
deposit is known. -/
theorem observeAwaiting_ne {fresh : GlcObservationOutcome} (hfresh : fresh ≠ .alreadyRecorded)
    (h : l.observeAwaiting id r dep lock fresh now = .ok (outcome, l')) :
    outcome ≠ .alreadyRecorded := by
  simp only [observeAwaiting, bind_eq_ok, require_eq_ok, exists_unit] at h
  obtain ⟨-, h⟩ := h
  split_ifs at h
  · rw [pure_eq_ok, Prod.mk.injEq] at h
    rw [← h.1]
    decide
  · obtain ⟨⟨l₁, r₁, note⟩, -, h⟩ := bind_eq_ok.mp h
    dsimp only at h
    split_ifs at h
    · rw [pure_eq_ok, Prod.mk.injEq] at h
      rw [← h.1]
      decide
    · split at h
      · rw [pure_eq_ok, Prod.mk.injEq] at h
        rw [← h.1]
        decide
      · split at h
        · rw [pure_eq_ok, Prod.mk.injEq] at h
          rw [← h.1]
          decide
        · rw [pure_eq_ok, Prod.mk.injEq] at h
          rw [← h.1]
          exact hfresh

/-- What is known already is a deposit of the same transaction, on a row that is
not final. -/
theorem recordGlcDepositObserved_already
    (h : l.recordGlcDepositObserved id dep lock now = .ok (.alreadyRecorded, l')) :
    ∃ r, l.requests.get? id = some r ∧ r.state.isObserved = true ∧ r.sourceTxid = some dep.txid := by
  unfold recordGlcDepositObserved at h
  split at h
  · rw [pure_eq_ok, Prod.mk.injEq] at h
    cases h.1
  · rename_i r hget
    by_cases hknown : (r.state = .depositObserved ∨ r.state = .confirming) ∧
        r.sourceTxid = some dep.txid
    · refine ⟨r, hget, ?_, hknown.2⟩
      rcases hknown.1 with hstate | hstate <;> rw [hstate] <;> rfl
    · exfalso
      rw [if_neg hknown] at h
      split_ifs at h
      · obtain ⟨v, -, h⟩ := bind_eq_ok.mp h
        split_ifs at h
        · simp only [bind_eq_ok, require_eq_ok, exists_unit, pure_eq_ok, Prod.mk.injEq] at h
          cases h.2.1
        · exact observeAwaiting_ne (by decide) h rfl
      · rw [pure_eq_ok, Prod.mk.injEq] at h
        cases h.1
      · exact observeAwaiting_ne (by decide) h rfl
      · rw [pure_eq_ok, Prod.mk.injEq] at h
        cases h.1

namespace Deposited

variable {r' : Request}

/-- The row has its deposit, and the others are as they were. -/
theorem depositRow (h : l.Deposited id dep l' r r') (hrows : DepositRows next l)
    (hheight : dep.blockHeight ≤ next) {k : ℕ} {x : Request} (hget : l'.requests.get? k = some x) :
    DepositRow next x := by
  rw [h.rows] at hget
  split_ifs at hget with hk
  · obtain rfl := Option.some.inj hget
    refine ⟨fun _ => ⟨?_, dep.blockHeight, h.block, hheight⟩, fun _ hstate => ?_, fun _ => ?_⟩
    · rw [h.direction]
      exact h.source
    · rcases h.state with hs | hs <;> rw [hs] at hstate <;> cases hstate
    · rw [h.paid.1, h.paid.2]
      rfl
  · exact hrows.rows k x hget

/-- A row that had a deposit before is another one. -/
theorem keepsDeposit (h : l.Deposited id dep l' r r') (hrows : DepositRows next l) {k : ℕ}
    {x : Request} (hget : l.requests.get? k = some x) (hx : x.sourceTxid ≠ none) :
    l'.requests.get? k = some x := by
  rw [h.rows, if_neg, hget]
  rintro rfl
  obtain rfl := Option.some.inj (hget.symm.trans h.found)
  refine hx ((hrows.rows k x hget).unfunded h.source ?_)
  rcases h.unfunded with hs | hs <;> rw [hs] <;> rfl

theorem unique (h : l.Deposited id dep l' r r') (hunique : l.OutpointsUnique) :
    l'.OutpointsUnique := by
  intro k k' x x' txid vout hget hget' hpaid hpaid'
  rw [h.rows] at hget hget'
  have hother {k : ℕ} {x : Request} (hk : k ≠ id) (hget : l.requests.get? k = some x) :
      ¬ x.PaidBy dep.txid dep.vout := not_paidBy_of_free h.free hget (by simpa using hk)
  have hsame {txid : Txid} {vout : ℕ} (hpaid : r'.PaidBy txid vout) :
      txid = dep.txid ∧ vout = dep.vout :=
    ⟨Option.some.inj (hpaid.1.symm.trans h.paid.1), Option.some.inj (hpaid.2.symm.trans h.paid.2)⟩
  split_ifs at hget with hk
  · obtain rfl := Option.some.inj hget
    obtain ⟨rfl, rfl⟩ := hsame hpaid
    split_ifs at hget' with hk'
    · rw [hk, hk']
    · exact absurd hpaid' (hother hk' hget')
  · split_ifs at hget' with hk'
    · obtain rfl := Option.some.inj hget'
      obtain ⟨rfl, rfl⟩ := hsame hpaid'
      exact absurd hpaid (hother hk hget)
    · exact hunique k k' x x' txid vout hget hget' hpaid hpaid'

end Deposited

/-- A rollback leaves the deposits up to the fork. -/
theorem DepositRows.rollback (h : DepositRows next l) (forkHeight : ℤ) :
    DepositRows forkHeight (l.goldcoinRollbackReorg forkHeight) where
  wf := by
    have hstep : l.step (.goldcoinRollbackReorg forkHeight) =
        some (l.goldcoinRollbackReorg forkHeight) := rfl
    exact h.wf.step hstep
  rows id r' hget := by
    rw [get?_goldcoinRollbackReorg, Option.map_eq_some_iff] at hget
    obtain ⟨r, hget, rfl⟩ := hget
    have hr := h.rows id r hget
    split_ifs with horphaned
    · exact ⟨nofun, fun _ _ => rfl, fun _ => rfl⟩
    · refine ⟨fun hstate => ?_, hr.unfunded, hr.paired⟩
      obtain ⟨hsource, height, hblock, -⟩ := hr.observed hstate
      refine ⟨hsource, height, hblock, not_lt.mp fun habove => horphaned ?_⟩
      exact ⟨hsource, by cases hs : r.state <;> simp [hs, RequestState.isObserved] at hstate ⊢,
        height, hblock, habove⟩
  unique := h.unique.of_kept fun id r' hget => by
    rw [get?_goldcoinRollbackReorg, Option.map_eq_some_iff] at hget
    obtain ⟨r, hget, rfl⟩ := hget
    refine ⟨r, hget, fun txid vout hpaid => ?_⟩
    split_ifs at hpaid
    · cases hpaid.1
    · exact hpaid

end Ledger

end Service
