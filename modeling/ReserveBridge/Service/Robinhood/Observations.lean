-- SUMMARY: The deposit observations of Robinhood in the ledger: rows, scan anchors and the four operations that write them, and what every run of these operations keeps.
import Mathlib.Data.List.Sort
import ReserveBridge.Lib.Run
import ReserveBridge.Lib.Table
import ReserveBridge.Service.BeginRefund

/-!
# Deposit observations

`service/src/ledger/robinhood.rs`: `robinhood_deposit_observations` and
`robinhood_scanned_blocks`, with the operations on them. Contracts, wallets,
hashes and amounts of the contract are numbers, as in the other tables of
Robinhood.
-/

namespace Service.Robinhood
open Guard

/-! ## Rows -/

inductive ObservationFinality
  | provisional | final | reorged
  deriving DecidableEq, Repr

/-- One sighting of `DepositCreated`. -/
@[ext] structure DepositObservation where
  sourceContract : ℕ
  obligationIndex : ℕ
  route : Direction
  depositor : ℕ
  destination : List UInt8
  amountRobinhoodAtomic : ℕ
  amountCanonicalAtomic : ℕ
  txHash : ℕ
  logIndex : ℕ
  blockNumber : ℕ
  blockHash : ℕ
  deriving DecidableEq, Repr

/-- A row of `robinhood_deposit_observations`. -/
structure ObservationRow where
  observation : DepositObservation
  finality : ObservationFinality
  observedAt : ℤ
  finalizedAt : Option ℤ
  reorgedAt : Option ℤ
  deriving DecidableEq, Repr

namespace ObservationRow

/-- `finality <> 'Reorged'`. -/
def Live (r : ObservationRow) : Prop := r.finality ≠ .reorged

instance (r : ObservationRow) : Decidable r.Live := inferInstanceAs (Decidable (_ ≠ _))

/-- The checks of the table. -/
def Checks (r : ObservationRow) : Prop :=
  (r.observation.route = .rhnToGlc ∨ r.observation.route = .rhnToSol) ∧
  1 ≤ r.observation.destination.length ∧ r.observation.destination.length ≤ 64 ∧
  0 < r.observation.amountCanonicalAtomic ∧
  (r.finality = .final ↔ r.finalizedAt.isSome) ∧
  (r.finality = .reorged ↔ r.reorgedAt.isSome)

instance : DecidablePred Checks := fun _ => inferInstanceAs (Decidable (_ ∧ _))

/-- An entry of one of the two unique indexes. -/
inductive Key
  | obligation (contract index : ℕ)
  | log (txHash logIndex : ℕ)
  deriving DecidableEq, Repr

/-- The two indexes cover the rows that are not reorged. -/
def keys (r : ObservationRow) : List Key :=
  if r.Live then
    [.obligation r.observation.sourceContract r.observation.obligationIndex,
      .log r.observation.txHash r.observation.logIndex]
  else []

end ObservationRow

abbrev ObservationTable := Table ObservationRow.Checks ObservationRow.keys

/-- A row of `robinhood_scanned_blocks`, which is keyed by the height. -/
structure ScannedBlock where
  blockHash : ℕ
  scannedAt : ℤ
  deriving DecidableEq, Repr

/-- A row of `robinhood_reorg_events`. -/
structure ReorgEvent where
  detectedAt : ℤ
  forkBlock : ℕ
  forkHash : ℕ
  oldTipBlock : ℕ
  oldTipHash : ℕ
  orphanedCount : ℕ
  deriving DecidableEq, Repr

structure ObservationStore where
  observations : ObservationTable
  scannedBlocks : Store ℕ ScannedBlock
  reorgEvents : List ReorgEvent

def ObservationStore.empty : ObservationStore := ⟨.empty, .empty, []⟩

inductive ObservationOutcome
  | recorded | alreadyRecorded
  deriving DecidableEq, Repr

structure ObservationConflict where
  obligationIndex : ℕ
  field : String
  deriving DecidableEq, Repr

inductive ObservationError
  | valueOutOfRange (field : String) (value : ℕ)
  | observationConflict (conflict : ObservationConflict)
  | postFinalityReorg (forkBlock finalizedAbove : ℕ)
  /-- A row that the schema refuses. -/
  | sqlite
  /-- The route of an observation has no id in the contract. -/
  | panicked
  deriving DecidableEq, Repr

/-- A number a column can hold. -/
def toI64 (value : ℕ) (field : String) : Except ObservationError ℤ :=
  if value < 2 ^ 63 then .ok value else .error (.valueOutOfRange field value)

/-! ## Recording -/

/-- The first field on which two observations of one identity differ. -/
def firstDisagreement (stored observed : DepositObservation) : Option ObservationConflict :=
  let checks : List (String × Bool) :=
    [("source_contract", stored.sourceContract = observed.sourceContract),
      ("obligation_index", stored.obligationIndex = observed.obligationIndex),
      ("route", stored.route = observed.route),
      ("depositor", stored.depositor = observed.depositor),
      ("destination", stored.destination = observed.destination),
      ("amount_robinhood_atomic",
        stored.amountRobinhoodAtomic = observed.amountRobinhoodAtomic),
      ("amount_canonical_atomic",
        stored.amountCanonicalAtomic = observed.amountCanonicalAtomic),
      ("tx_hash", stored.txHash = observed.txHash),
      ("log_index", stored.logIndex = observed.logIndex),
      ("block_number", stored.blockNumber = observed.blockNumber),
      ("block_hash", stored.blockHash = observed.blockHash)]
  (checks.find? fun check => !check.2).map fun check => ⟨stored.obligationIndex, check.1⟩

/-- The live row of a contract and an obligation index. -/
def observationBySource (T : ObservationTable) (sourceContract obligationIndex : ℕ) :
    Option (ℕ × ObservationRow) :=
  T.rows.entries.find? fun e =>
    e.2.observation.sourceContract = sourceContract ∧
      e.2.observation.obligationIndex = obligationIndex ∧ e.2.Live

def recordObservation (T : ObservationTable) (o : DepositObservation) (now : ℤ) :
    Except ObservationError (ObservationTable × ObservationOutcome) := do
  let _ ← toI64 o.obligationIndex "obligation_index"
  match observationBySource T o.sourceContract o.obligationIndex with
  | some (_, stored) =>
    match firstDisagreement stored.observation o with
    | none => return (T, .alreadyRecorded)
    | some conflict => .error (.observationConflict conflict)
  | none =>
    require (o.route.contractRouteId.isSome) .panicked
    let _ ← toI64 o.amountCanonicalAtomic "amount_canonical_atomic"
    let _ ← toI64 o.logIndex "log_index"
    let _ ← toI64 o.blockNumber "block_number"
    let T' ← orFail (T.insert ⟨o, .provisional, now, none, none⟩) .sqlite
    return (T', .recorded)

structure RangeApplied where
  recorded : ℕ
  alreadyRecorded : ℕ
  deriving DecidableEq, Repr

def RangeApplied.count (applied : RangeApplied) : ObservationOutcome → RangeApplied
  | .recorded => { applied with recorded := applied.recorded + 1 }
  | .alreadyRecorded => { applied with alreadyRecorded := applied.alreadyRecorded + 1 }

/-- One observation after another. -/
def recordObservations (now : ℤ) (T : ObservationTable) (applied : RangeApplied) :
    List DepositObservation → Except ObservationError (ObservationTable × RangeApplied)
  | [] => return (T, applied)
  | o :: os => do
    let (T', outcome) ← recordObservation T o now
    recordObservations now T' (applied.count outcome) os

/-! ## Finality -/

namespace ObservationRow

def finalize (now : ℤ) (r : ObservationRow) : ObservationRow :=
  { r with finality := .final, finalizedAt := some now }

def orphan (now : ℤ) (r : ObservationRow) : ObservationRow :=
  { r with finality := .reorged, reorgedAt := some now }

/-- `UPDATE … SET finality = 'Final' WHERE finality = 'Provisional' AND …`. -/
def finalizeIf (now : ℤ) (p : DepositObservation → Bool) (r : ObservationRow) : ObservationRow :=
  if r.finality = .provisional ∧ p r.observation then r.finalize now else r

/-- `UPDATE … SET finality = 'Reorged' WHERE finality = 'Provisional' AND …`. -/
def orphanIf (now : ℤ) (p : DepositObservation → Bool) (r : ObservationRow) : ObservationRow :=
  if r.finality = .provisional ∧ p r.observation then r.orphan now else r

variable {now : ℤ} {p : DepositObservation → Bool} {r : ObservationRow}

theorem finalizeIf_checks (h : r.Checks) : (r.finalizeIf now p).Checks := by
  unfold finalizeIf
  split_ifs with hp
  · obtain ⟨hroute, hshort, hlong, hamount, -, hreorged⟩ := h
    rw [hp.1] at hreorged
    exact ⟨hroute, hshort, hlong, hamount, by simp [finalize], by simpa [finalize] using hreorged⟩
  · exact h

theorem orphanIf_checks (h : r.Checks) : (r.orphanIf now p).Checks := by
  unfold orphanIf
  split_ifs with hp
  · obtain ⟨hroute, hshort, hlong, hamount, hfinal, -⟩ := h
    rw [hp.1] at hfinal
    exact ⟨hroute, hshort, hlong, hamount, by simpa [orphan] using hfinal, by simp [orphan]⟩
  · exact h

theorem finalizeIf_keys : (r.finalizeIf now p).keys ⊆ r.keys := by
  unfold finalizeIf
  split_ifs with hp
  · simp [keys, Live, finalize, hp.1]
  · exact List.Subset.refl _

theorem orphanIf_keys : (r.orphanIf now p).keys ⊆ r.keys := by
  unfold orphanIf
  split_ifs with hp
  · simp [keys, Live, orphan]
  · exact List.Subset.refl _

end ObservationRow

/-- Make the provisional rows with `p` final. -/
def finalizeRows (T : ObservationTable) (now : ℤ) (p : DepositObservation → Bool) :
    ObservationTable :=
  T.mapValues (ObservationRow.finalizeIf now p) (fun _ => ObservationRow.finalizeIf_checks)
    fun _ => ObservationRow.finalizeIf_keys

/-- Make the provisional rows with `p` tombstones. -/
def orphanRows (T : ObservationTable) (now : ℤ) (p : DepositObservation → Bool) :
    ObservationTable :=
  T.mapValues (ObservationRow.orphanIf now p) (fun _ => ObservationRow.orphanIf_checks)
    fun _ => ObservationRow.orphanIf_keys

def rowsWhere (T : ObservationTable) (p : ObservationRow → Bool) : List ObservationRow :=
  (T.rows.entries.map Prod.snd).filter p

/-- The rows that satisfy `p`, by block and position in it. -/
def observationsWhere (T : ObservationTable) (p : ObservationRow → Bool) : List ObservationRow :=
  (rowsWhere T p).insertionSort fun r r' =>
    r.observation.blockNumber < r'.observation.blockNumber ∨
      r.observation.blockNumber = r'.observation.blockNumber ∧
        r.observation.logIndex ≤ r'.observation.logIndex

/-! ## Anchors -/

/-- `INSERT … ON CONFLICT(block_number) DO UPDATE`. -/
def anchorBlock (anchors : Store ℕ ScannedBlock) (block hash : ℕ) (now : ℤ) :
    Store ℕ ScannedBlock :=
  anchors.upsert block ⟨hash, now⟩ fun _ => ⟨hash, now⟩

def anchorBlocks (now : ℤ) (anchors : Store ℕ ScannedBlock) :
    List (ℕ × ℕ) → Except ObservationError (Store ℕ ScannedBlock)
  | [] => return anchors
  | (block, hash) :: rest => do
    let _ ← toI64 block "anchor_block"
    anchorBlocks now (anchorBlock anchors block hash now) rest

/-- `SELECT MAX(block_number) … WHERE block_number < floor`. -/
def highestBelow (anchors : Store ℕ ScannedBlock) (floor : ℤ) : Option ℕ :=
  (anchors.keys.filter fun n : ℕ => decide ((n : ℤ) < floor)).max?

/-- Of the anchors below `floor` only the highest stays. -/
def pruneAnchors (anchors : Store ℕ ScannedBlock) (floor : ℤ) : Store ℕ ScannedBlock :=
  anchors.retain fun n => floor ≤ n ∨ highestBelow anchors floor = some n

namespace ObservationStore

/-- The highest anchor. -/
def robinhoodScanCursor (s : ObservationStore) : Option (ℕ × ℕ) := do
  let block ← s.scannedBlocks.keys.max?
  let anchor ← s.scannedBlocks.get? block
  return (block, anchor.blockHash)

/-- The anchors, highest first. -/
def robinhoodScanAnchorsDesc (s : ObservationStore) : List (ℕ × ℕ) :=
  (s.scannedBlocks.entries.map fun e => (e.1, e.2.blockHash)).insertionSort fun a b => b.1 ≤ a.1

/-! ## Operations -/

/-- A range of blocks in one transaction: its observations, the anchors of its
deposits and its last block as the new cursor. -/
def robinhoodApplyScanRange (s : ObservationStore) (observations : List DepositObservation)
    (depositBlockAnchors : List (ℕ × ℕ)) (cursorBlock cursorHash retainAnchorsBelow : ℕ)
    (now : ℤ) : Except ObservationError (ObservationStore × RangeApplied) := do
  let cursor ← toI64 cursorBlock "cursor_block"
  let (T, applied) ← recordObservations now s.observations ⟨0, 0⟩ observations
  let anchors ← anchorBlocks now s.scannedBlocks (depositBlockAnchors ++ [(cursorBlock, cursorHash)])
  let retain ← toI64 retainAnchorsBelow "retain"
  return ({ s with observations := T, scannedBlocks := pruneAnchors anchors (cursor - retain) },
    applied)

/-- One observation that is final from the start, besides the scanner. -/
def robinhoodRecordFinalObservation (s : ObservationStore) (o : DepositObservation) (now : ℤ) :
    Except ObservationError (ObservationStore × ObservationOutcome) := do
  let (T, outcome) ← recordObservation s.observations o now
  match outcome with
  | .recorded =>
    let T' := finalizeRows T now fun o' =>
      o'.sourceContract = o.sourceContract ∧ o'.obligationIndex = o.obligationIndex
    return ({ s with observations := T' }, outcome)
  | .alreadyRecorded => return ({ s with observations := T }, outcome)

/-- Returns the obligation indexes that became final. -/
def robinhoodPromoteFinal (s : ObservationStore) (head confirmationDepth : ℕ) (now : ℤ) :
    Except ObservationError (ObservationStore × List ℕ) := do
  let head ← toI64 head "head"
  let depth ← toI64 (max confirmationDepth 1) "confirmation_depth"
  let finalAtOrBelow := head - depth + 1
  let promoted := observationsWhere s.observations fun r =>
    r.finality = .provisional ∧ (r.observation.blockNumber : ℤ) ≤ finalAtOrBelow
  return ({ s with observations := finalizeRows s.observations now fun o =>
      (o.blockNumber : ℤ) ≤ finalAtOrBelow },
    promoted.map fun r => r.observation.obligationIndex)

def robinhoodFinalObservationsAbove (s : ObservationStore) (forkBlock : ℕ) :
    Except ObservationError (List ℕ) := do
  let _ ← toI64 forkBlock "fork_block"
  let rows := observationsWhere s.observations fun r =>
    r.finality = .final ∧ forkBlock < r.observation.blockNumber
  return rows.map fun r => r.observation.obligationIndex

/-- Returns how many rows became tombstones. -/
def robinhoodRollbackReorg (s : ObservationStore) (forkBlock forkHash oldTipBlock oldTipHash : ℕ)
    (now : ℤ) : Except ObservationError (ObservationStore × ℕ) := do
  let _ ← toI64 forkBlock "fork_block"
  let _ ← toI64 oldTipBlock "old_tip_block"
  let finalAbove := (rowsWhere s.observations fun r =>
    r.finality = .final ∧ forkBlock < r.observation.blockNumber).length
  require (finalAbove = 0) (.postFinalityReorg forkBlock finalAbove)
  let orphaned := (rowsWhere s.observations fun r =>
    r.finality = .provisional ∧ forkBlock < r.observation.blockNumber).length
  return ({
      observations := orphanRows s.observations now fun o => forkBlock < o.blockNumber
      scannedBlocks := anchorBlock (s.scannedBlocks.retain fun n => n ≤ forkBlock) forkBlock
        forkHash now
      reorgEvents :=
        s.reorgEvents ++ [⟨now, forkBlock, forkHash, oldTipBlock, oldTipHash, orphaned⟩] },
    orphaned)

end ObservationStore

/-! ## Runs -/

inductive ObservationOp
  | applyScanRange (observations : List DepositObservation) (depositBlockAnchors : List (ℕ × ℕ))
      (cursorBlock cursorHash retainAnchorsBelow : ℕ) (now : ℤ)
  | recordFinalObservation (o : DepositObservation) (now : ℤ)
  | promoteFinal (head confirmationDepth : ℕ) (now : ℤ)
  | rollbackReorg (forkBlock forkHash oldTipBlock oldTipHash : ℕ) (now : ℤ)

/-- The operation is a rollback. -/
def ObservationOp.IsRollback : ObservationOp → Prop
  | .rollbackReorg .. => True
  | _ => False

namespace ObservationStore

/-- One operation, in a transaction. -/
def run (s : ObservationStore) : ObservationOp → Except ObservationError ObservationStore
  | .applyScanRange os anchors cursorBlock cursorHash retain now =>
    Prod.fst <$> s.robinhoodApplyScanRange os anchors cursorBlock cursorHash retain now
  | .recordFinalObservation o now => Prod.fst <$> s.robinhoodRecordFinalObservation o now
  | .promoteFinal head depth now => Prod.fst <$> s.robinhoodPromoteFinal head depth now
  | .rollbackReorg forkBlock forkHash oldTipBlock oldTipHash now =>
    Prod.fst <$> s.robinhoodRollbackReorg forkBlock forkHash oldTipBlock oldTipHash now

/-- An operation that returns an error is rolled back. -/
def step (s : ObservationStore) (op : ObservationOp) : Option ObservationStore :=
  (s.run op).toOption

/-- The store after a run from the empty one. -/
def after (ops : List ObservationOp) : ObservationStore := Run.final step .empty ops

end ObservationStore

/-! ## What recording does -/

section Recording

variable {T T' : ObservationTable} {o : DepositObservation} {os : List DepositObservation}
  {now : ℤ} {outcome : ObservationOutcome} {applied applied' : RangeApplied}

@[simp] theorem toI64_eq_ok {value : ℕ} {field : String} {x : ℤ} :
    toI64 value field = .ok x ↔ value < 2 ^ 63 ∧ x = value := by
  unfold toI64
  split_ifs with h
  · simp only [Except.ok.injEq, h, true_and]
    exact eq_comm
  · exact iff_of_false (fun heq => by cases heq) fun hlt => h hlt.1

theorem firstDisagreement_eq_none {stored observed : DepositObservation} :
    firstDisagreement stored observed = none ↔ stored = observed := by
  rw [DepositObservation.ext_iff]
  simp [firstDisagreement]

theorem observationBySource_eq_some {contract index k : ℕ} {r : ObservationRow}
    (h : observationBySource T contract index = some (k, r)) :
    T.get? k = some r ∧ r.observation.sourceContract = contract ∧
      r.observation.obligationIndex = index ∧ r.Live := by
  have hsource := List.find?_some h
  rw [decide_eq_true_eq] at hsource
  exact ⟨Store.get?_of_mem (List.mem_of_find?_eq_some h), hsource⟩

/-- The live row of an identity is the only one. -/
theorem live_unique {k₁ k₂ : ℕ} {r₁ r₂ : ObservationRow} (h₁ : T.get? k₁ = some r₁)
    (h₂ : T.get? k₂ = some r₂) (hlive₁ : r₁.Live) (hlive₂ : r₂.Live)
    (hcontract : r₁.observation.sourceContract = r₂.observation.sourceContract)
    (hindex : r₁.observation.obligationIndex = r₂.observation.obligationIndex) : k₁ = k₂ := by
  apply T.unique k₁ k₂ r₁ r₂
    (.obligation r₁.observation.sourceContract r₁.observation.obligationIndex) h₁ h₂
  · simp [ObservationRow.keys, hlive₁]
  · simp [ObservationRow.keys, hlive₂, hcontract, hindex]

theorem observationBySource_of_live {k : ℕ} {r : ObservationRow} (h : T.get? k = some r)
    (hlive : r.Live) (hr : r.observation = o) :
    ∃ k', observationBySource T o.sourceContract o.obligationIndex = some (k', r) := by
  subst hr
  cases hfind : observationBySource T r.observation.sourceContract r.observation.obligationIndex with
  | none =>
    have hnot := List.find?_eq_none.mp hfind (k, r) (Store.mem_of_get? h)
    simp [hlive] at hnot
  | some e =>
    obtain ⟨hget, hcontract, hindex, hlive'⟩ := observationBySource_eq_some hfind
    have hk := live_unique hget h hlive' hlive hcontract hindex
    rw [hk, h] at hget
    exact ⟨e.1, by rw [Option.some.inj hget]⟩

/-- A live row records this observation. -/
def Records (T : ObservationTable) (o : DepositObservation) : Prop :=
  ∃ k r, T.get? k = some r ∧ r.Live ∧ r.observation = o

/-- An observation that was recorded, or that a live row records already. -/
theorem recordObservation_cases (h : recordObservation T o now = .ok (T', outcome)) :
    o.obligationIndex < 2 ^ 63 ∧
      ((outcome = .alreadyRecorded ∧ T' = T ∧ Records T o) ∨
        (outcome = .recorded ∧ ∀ k, T'.get? k =
          if k = T.rows.nextKey then some ⟨o, .provisional, now, none, none⟩ else T.get? k)) := by
  unfold recordObservation at h
  rw [bind_eq_ok] at h
  obtain ⟨x, hx, h⟩ := h
  refine ⟨(toI64_eq_ok.mp hx).1, ?_⟩
  split at h
  · rename_i k stored hstored
    obtain ⟨hget, -, -, hlive⟩ := observationBySource_eq_some hstored
    split at h
    · rename_i hnone
      obtain ⟨rfl, rfl⟩ := Prod.mk.inj (pure_eq_ok.mp h)
      exact .inl ⟨rfl, rfl, k, stored, hget, hlive, firstDisagreement_eq_none.mp hnone⟩
    · cases h
  · simp only [bind_eq_ok, exists_unit, require_eq_ok, toI64_eq_ok, orFail_eq_ok, pure_eq_ok,
      Prod.mk.injEq] at h
    obtain ⟨-, -, -, -, -, -, -, T₁, hinsert, rfl, rfl⟩ := h
    exact .inr ⟨rfl, (Table.insert_eq_some hinsert).2⟩

/-- What a live row records is found again. -/
theorem recordObservation_again (hindex : o.obligationIndex < 2 ^ 63) (h : Records T o) :
    recordObservation T o now = .ok (T, .alreadyRecorded) := by
  obtain ⟨k, r, hget, hlive, hr⟩ := h
  obtain ⟨k', hfind⟩ := observationBySource_of_live hget hlive hr
  have hnone : firstDisagreement r.observation o = none := firstDisagreement_eq_none.mpr hr
  simp only [recordObservation, toI64, hindex, if_true, hfind, hnone]
  rfl

end Recording

/-! ## What becomes of a row -/

/-- Every row of `T` is a row of `T'` still, changed as `R` allows. -/
def RowsFollow (R : ObservationRow → ObservationRow → Prop) (T T' : ObservationTable) : Prop :=
  ∀ k r, T.get? k = some r → ∃ r', T'.get? k = some r' ∧ R r r'

namespace ObservationRow

/-- What was observed stays, and a row that is final or reorged stays as it is. -/
structure Advances (r r' : ObservationRow) : Prop where
  observation : r'.observation = r.observation
  observedAt : r'.observedAt = r.observedAt
  settled : r.finality ≠ .provisional → r' = r

/-- What was observed stays, and a live row stays live. -/
structure StaysLive (r r' : ObservationRow) : Prop where
  observation : r'.observation = r.observation
  live : r.Live → r'.Live

variable {r r₁ r₂ r₃ : ObservationRow} {now : ℤ} {p : DepositObservation → Bool}

theorem Advances.refl (r : ObservationRow) : Advances r r := ⟨rfl, rfl, fun _ => rfl⟩

theorem Advances.trans (h : Advances r₁ r₂) (h' : Advances r₂ r₃) : Advances r₁ r₃ := by
  refine ⟨h'.observation.trans h.observation, h'.observedAt.trans h.observedAt, fun hsettled => ?_⟩
  have heq := h.settled hsettled
  subst heq
  exact h'.settled hsettled

theorem StaysLive.refl (r : ObservationRow) : StaysLive r r := ⟨rfl, id⟩

theorem StaysLive.trans (h : StaysLive r₁ r₂) (h' : StaysLive r₂ r₃) : StaysLive r₁ r₃ :=
  ⟨h'.observation.trans h.observation, fun hlive => h'.live (h.live hlive)⟩

theorem finalizeIf_advances : Advances r (r.finalizeIf now p) := by
  unfold finalizeIf
  split_ifs with hp
  · exact ⟨rfl, rfl, fun hsettled => absurd hp.1 hsettled⟩
  · exact .refl r

theorem orphanIf_advances : Advances r (r.orphanIf now p) := by
  unfold orphanIf
  split_ifs with hp
  · exact ⟨rfl, rfl, fun hsettled => absurd hp.1 hsettled⟩
  · exact .refl r

theorem finalizeIf_staysLive : StaysLive r (r.finalizeIf now p) := by
  unfold finalizeIf
  split_ifs with hp
  · exact ⟨rfl, fun _ => by simp [Live, finalize]⟩
  · exact .refl r

end ObservationRow

section Rows

variable {R : ObservationRow → ObservationRow → Prop} {T T₁ T₂ T₃ : ObservationTable}
  {o : DepositObservation} {os : List DepositObservation} {now : ℤ} {outcome : ObservationOutcome}
  {applied applied' : RangeApplied}

theorem RowsFollow.refl (hR : ∀ r, R r r) (T : ObservationTable) : RowsFollow R T T :=
  fun _ r hget => ⟨r, hget, hR r⟩

theorem RowsFollow.trans (hR : ∀ {r₁ r₂ r₃}, R r₁ r₂ → R r₂ r₃ → R r₁ r₃)
    (h : RowsFollow R T₁ T₂) (h' : RowsFollow R T₂ T₃) : RowsFollow R T₁ T₃ := by
  intro k r hget
  obtain ⟨r₂, hget₂, hr₂⟩ := h k r hget
  obtain ⟨r₃, hget₃, hr₃⟩ := h' k r₂ hget₂
  exact ⟨r₃, hget₃, hR hr₂ hr₃⟩

theorem RowsFollow.records (h : RowsFollow ObservationRow.StaysLive T₁ T₂) (hrec : Records T₁ o) :
    Records T₂ o := by
  obtain ⟨k, r, hget, hlive, rfl⟩ := hrec
  obtain ⟨r', hget', hr⟩ := h k r hget
  exact ⟨k, r', hget', hr.live hlive, hr.observation⟩

theorem finalizeRows_follow {p : DepositObservation → Bool}
    (hR : ∀ r, R r (r.finalizeIf now p)) : RowsFollow R T (finalizeRows T now p) := by
  intro k r hget
  exact ⟨_, by rw [finalizeRows, Table.get?_mapValues, hget, Option.map_some], hR r⟩

theorem orphanRows_follow {p : DepositObservation → Bool} (hR : ∀ r, R r (r.orphanIf now p)) :
    RowsFollow R T (orphanRows T now p) := by
  intro k r hget
  exact ⟨_, by rw [orphanRows, Table.get?_mapValues, hget, Option.map_some], hR r⟩

/-- Recording leaves the rows that are there. -/
theorem recordObservation_follow (hR : ∀ r, R r r)
    (h : recordObservation T₁ o now = .ok (T₂, outcome)) : RowsFollow R T₁ T₂ := by
  rcases (recordObservation_cases h).2 with ⟨-, rfl, -⟩ | ⟨-, hget⟩
  · exact .refl hR T₂
  · intro k r hr
    refine ⟨r, ?_, hR r⟩
    rw [hget, if_neg, hr]
    rintro rfl
    rw [Table.get?_nextKey] at hr
    cases hr

theorem records_of_recordObservation (h : recordObservation T₁ o now = .ok (T₂, outcome)) :
    Records T₂ o := by
  rcases (recordObservation_cases h).2 with ⟨-, rfl, hrec⟩ | ⟨-, hget⟩
  · exact hrec
  · exact ⟨_, _, by rw [hget, if_pos rfl], by simp [ObservationRow.Live], rfl⟩

theorem recordObservations_follow (hR : ∀ r, R r r)
    (htrans : ∀ {r₁ r₂ r₃}, R r₁ r₂ → R r₂ r₃ → R r₁ r₃)
    (h : recordObservations now T₁ applied os = .ok (T₂, applied')) : RowsFollow R T₁ T₂ := by
  induction os generalizing T₁ applied with
  | nil =>
    obtain ⟨rfl, -⟩ := Prod.mk.inj (pure_eq_ok.mp h)
    exact .refl hR T₁
  | cons o os ih =>
    rw [recordObservations, bind_eq_ok] at h
    obtain ⟨⟨T, outcome⟩, hfirst, hrest⟩ := h
    exact (recordObservation_follow hR hfirst).trans htrans (ih hrest)

/-- After a range every observation of it is recorded. -/
theorem records_of_recordObservations
    (h : recordObservations now T₁ applied os = .ok (T₂, applied')) :
    ∀ o ∈ os, o.obligationIndex < 2 ^ 63 ∧ Records T₂ o := by
  induction os generalizing T₁ applied with
  | nil => simp
  | cons o os ih =>
    rw [recordObservations, bind_eq_ok] at h
    obtain ⟨⟨T, outcome⟩, hfirst, hrest⟩ := h
    rw [List.forall_mem_cons]
    refine ⟨⟨(recordObservation_cases hfirst).1, ?_⟩, ih hrest⟩
    have hfollow := recordObservations_follow ObservationRow.StaysLive.refl
      (fun h h' => h.trans h') hrest
    exact hfollow.records (records_of_recordObservation hfirst)

theorem records_recordObservation_iff {o' : DepositObservation}
    (h : recordObservation T₁ o now = .ok (T₂, outcome)) :
    Records T₂ o' ↔ Records T₁ o' ∨ o' = o := by
  constructor
  · rintro ⟨k, r, hget, hlive, rfl⟩
    rcases (recordObservation_cases h).2 with ⟨-, rfl, -⟩ | ⟨-, hrows⟩
    · exact .inl ⟨k, r, hget, hlive, rfl⟩
    · rw [hrows] at hget
      split_ifs at hget with hk
      · exact .inr (by rw [← Option.some.inj hget])
      · exact .inl ⟨k, r, hget, hlive, rfl⟩
  · rintro (hrec | rfl)
    · exact (recordObservation_follow ObservationRow.StaysLive.refl h).records hrec
    · exact records_of_recordObservation h

/-- A range adds its observations and nothing else. -/
theorem records_recordObservations_iff {o' : DepositObservation}
    (h : recordObservations now T₁ applied os = .ok (T₂, applied')) :
    Records T₂ o' ↔ Records T₁ o' ∨ o' ∈ os := by
  induction os generalizing T₁ applied with
  | nil =>
    obtain ⟨rfl, -⟩ := Prod.mk.inj (pure_eq_ok.mp h)
    simp
  | cons o os ih =>
    rw [recordObservations, bind_eq_ok] at h
    obtain ⟨⟨T, outcome⟩, hfirst, hrest⟩ := h
    rw [ih hrest, records_recordObservation_iff hfirst, List.mem_cons, or_assoc]

theorem records_finalizeRows_iff {p : DepositObservation → Bool} :
    Records (finalizeRows T now p) o ↔ Records T o := by
  constructor
  · rintro ⟨k, r', hget, hlive, rfl⟩
    rw [finalizeRows, Table.get?_mapValues, Option.map_eq_some_iff] at hget
    obtain ⟨r, hget, rfl⟩ := hget
    refine ⟨k, r, hget, ?_, ObservationRow.finalizeIf_staysLive.observation.symm⟩
    unfold ObservationRow.finalizeIf at hlive
    split_ifs at hlive with hp
    · simp [ObservationRow.Live, hp.1]
    · exact hlive
  · exact (finalizeRows_follow fun _ => ObservationRow.finalizeIf_staysLive).records

/-- Where no final row has `p`, the rows with `p` are live no more. -/
theorem records_orphanRows_iff {p : DepositObservation → Bool}
    (hfinal : ∀ k r, T.get? k = some r → r.finality = .final → ¬ p r.observation) :
    Records (orphanRows T now p) o ↔ Records T o ∧ ¬ p o := by
  constructor
  · rintro ⟨k, r', hget, hlive, rfl⟩
    rw [orphanRows, Table.get?_mapValues, Option.map_eq_some_iff] at hget
    obtain ⟨r, hget, rfl⟩ := hget
    unfold ObservationRow.orphanIf at hlive ⊢
    split_ifs at hlive ⊢ with hp
    · simp [ObservationRow.Live, ObservationRow.orphan] at hlive
    · refine ⟨⟨k, r, hget, hlive, rfl⟩, fun hobs => ?_⟩
      cases hstate : r.finality with
      | provisional => exact hp ⟨hstate, hobs⟩
      | final => exact hfinal k r hget hstate hobs
      | reorged => exact hlive hstate
  · rintro ⟨⟨k, r, hget, hlive, rfl⟩, hobs⟩
    have hsame : r.orphanIf now p = r := by
      rw [ObservationRow.orphanIf, if_neg fun hp => hobs hp.2]
    refine ⟨k, r, ?_, hlive, rfl⟩
    rw [orphanRows, Table.get?_mapValues, hget, Option.map_some, hsame]

/-- Observations that are recorded are all found again. -/
theorem recordObservations_again (h : ∀ o ∈ os, o.obligationIndex < 2 ^ 63 ∧ Records T o) :
    recordObservations now T applied os =
      .ok (T, { applied with alreadyRecorded := applied.alreadyRecorded + os.length }) := by
  induction os generalizing applied with
  | nil => rfl
  | cons o os ih =>
    rw [List.forall_mem_cons] at h
    rw [recordObservations, recordObservation_again h.1.1 h.1.2]
    change recordObservations now T (applied.count .alreadyRecorded) os = _
    rw [ih h.2, RangeApplied.count, List.length_cons]
    simp only [Nat.add_assoc, Nat.add_comm 1]

end Rows

/-! ## Anchors -/

section Anchors

variable {anchors anchors' : Store ℕ ScannedBlock} {l : List (ℕ × ℕ)} {now floor : ℤ} {n : ℕ}

@[simp] theorem get?_anchorBlock {block hash : ℕ} :
    (anchorBlock anchors block hash now).get? n =
      if n = block then some ⟨hash, now⟩ else anchors.get? n := by
  rw [anchorBlock, Store.get?_upsert]
  cases anchors.get? block <;> rfl

theorem anchorBlocks_eq_ok :
    anchorBlocks now anchors l = .ok anchors' ↔
      (∀ e ∈ l, e.1 < 2 ^ 63) ∧
        anchors' = l.foldl (fun anchors e => anchorBlock anchors e.1 e.2 now) anchors := by
  induction l generalizing anchors with
  | nil =>
    rw [anchorBlocks, pure_eq_ok]
    simp [eq_comm]
  | cons e l ih =>
    obtain ⟨block, hash⟩ := e
    simp only [anchorBlocks, bind_eq_ok, toI64_eq_ok, ih, List.forall_mem_cons, List.foldl_cons]
    constructor
    · rintro ⟨x, ⟨hblock, -⟩, hl, rfl⟩
      exact ⟨⟨hblock, hl⟩, rfl⟩
    · rintro ⟨⟨hblock, hl⟩, rfl⟩
      exact ⟨_, ⟨hblock, rfl⟩, hl, rfl⟩

/-- A block that is not anchored keeps its anchor, and one that is has a new one. -/
theorem get?_foldl_anchorBlock (anchors : Store ℕ ScannedBlock) (l : List (ℕ × ℕ)) (now : ℤ)
    (n : ℕ) :
    (n ∉ l.map Prod.fst ∧ (l.foldl (fun anchors e => anchorBlock anchors e.1 e.2 now)
        anchors).get? n = anchors.get? n) ∨
      ∃ hash, (n, hash) ∈ l ∧ (l.foldl (fun anchors e => anchorBlock anchors e.1 e.2 now)
        anchors).get? n = some ⟨hash, now⟩ := by
  induction l generalizing anchors with
  | nil => exact .inl ⟨List.not_mem_nil, rfl⟩
  | cons e l ih =>
    rw [List.foldl_cons]
    rcases ih (anchorBlock anchors e.1 e.2 now) with ⟨hout, hget⟩ | ⟨hash, hmem, hget⟩
    · by_cases hn : n = e.1
      · refine .inr ⟨e.2, by rw [hn]; exact List.mem_cons_self, ?_⟩
        rw [hget, get?_anchorBlock, if_pos hn]
      · refine .inl ⟨?_, ?_⟩
        · rw [List.map_cons, List.mem_cons, not_or]
          exact ⟨hn, hout⟩
        · rw [hget, get?_anchorBlock, if_neg hn]
    · exact .inr ⟨hash, List.mem_cons_of_mem _ hmem, hget⟩

theorem get?_pruneAnchors :
    (pruneAnchors anchors floor).get? n =
      if floor ≤ n ∨ highestBelow anchors floor = some n then anchors.get? n else none := by
  rw [pruneAnchors, Store.get?_retain]
  simp only [decide_eq_true_eq]

theorem highestBelow_eq_some :
    highestBelow anchors floor = some n ↔
      ((anchors.get? n).isSome ∧ (n : ℤ) < floor) ∧
        ∀ m : ℕ, (anchors.get? m).isSome → (m : ℤ) < floor → m ≤ n := by
  simp only [highestBelow, List.max?_eq_some_iff, List.mem_filter, decide_eq_true_eq,
    Store.get?_isSome, and_imp]

/-- The cursor is an anchor that no other is above. -/
theorem robinhoodScanCursor_eq_some {s : ObservationStore} {hash : ℕ} :
    s.robinhoodScanCursor = some (n, hash) ↔
      (s.scannedBlocks.get? n).map ScannedBlock.blockHash = some hash ∧
        ∀ m ∈ s.scannedBlocks.keys, m ≤ n := by
  simp only [ObservationStore.robinhoodScanCursor, Option.bind_eq_bind, Option.bind_eq_some_iff,
    List.max?_eq_some_iff, Option.pure_def, Option.some.injEq, Prod.mk.injEq, Option.map_eq_some_iff]
  constructor
  · rintro ⟨m, ⟨hmem, hmax⟩, anchor, hget, rfl, hhash⟩
    exact ⟨⟨anchor, hget, hhash⟩, hmax⟩
  · rintro ⟨⟨anchor, hget, hhash⟩, hmax⟩
    exact ⟨n, ⟨Store.get?_isSome.mp (by rw [hget]; rfl), hmax⟩, anchor, hget, rfl, hhash⟩

end Anchors

/-! ## What an operation does -/

namespace ObservationStore

variable {s s' : ObservationStore} {os : List DepositObservation} {anchors : List (ℕ × ℕ)}
  {cursorBlock cursorHash retain forkBlock forkHash oldTipBlock oldTipHash orphaned n : ℕ} {now : ℤ}
  {applied : RangeApplied}

/-- The anchors after a range, before they are pruned. -/
def anchored (s : ObservationStore) (anchors : List (ℕ × ℕ)) (now : ℤ) : Store ℕ ScannedBlock :=
  anchors.foldl (fun anchors e => anchorBlock anchors e.1 e.2 now) s.scannedBlocks

theorem robinhoodApplyScanRange_eq_ok :
    s.robinhoodApplyScanRange os anchors cursorBlock cursorHash retain now = .ok (s', applied) ↔
      ∃ T, recordObservations now s.observations ⟨0, 0⟩ os = .ok (T, applied) ∧
        (∀ e ∈ anchors ++ [(cursorBlock, cursorHash)], e.1 < 2 ^ 63) ∧ retain < 2 ^ 63 ∧
        s' = { s with
          observations := T
          scannedBlocks := pruneAnchors (s.anchored (anchors ++ [(cursorBlock, cursorHash)]) now)
            (cursorBlock - retain) } := by
  simp only [robinhoodApplyScanRange, bind_eq_ok, toI64_eq_ok, anchorBlocks_eq_ok, pure_eq_ok,
    Prod.exists, Prod.mk.injEq]
  constructor
  · rintro ⟨x, ⟨hcursor, rfl⟩, T, applied', hrecord, anchors', ⟨hblocks, rfl⟩, y, ⟨hretain, rfl⟩,
      rfl, rfl⟩
    exact ⟨T, hrecord, hblocks, hretain, rfl⟩
  · rintro ⟨T, hrecord, hblocks, hretain, rfl⟩
    have hcursor : cursorBlock < 2 ^ 63 := hblocks (cursorBlock, cursorHash) (by simp)
    exact ⟨_, ⟨hcursor, rfl⟩, T, applied, hrecord, _, ⟨hblocks, rfl⟩, _, ⟨hretain, rfl⟩, rfl, rfl⟩

theorem robinhoodRollbackReorg_eq_ok
    (h : s.robinhoodRollbackReorg forkBlock forkHash oldTipBlock oldTipHash now =
      .ok (s', orphaned)) :
    (∀ k r, s.observations.get? k = some r → r.finality = .final →
        r.observation.blockNumber ≤ forkBlock) ∧
      s'.observations = orphanRows s.observations now (fun o => forkBlock < o.blockNumber) ∧
      s'.scannedBlocks = anchorBlock (s.scannedBlocks.retain fun n => n ≤ forkBlock) forkBlock
        forkHash now := by
  simp only [robinhoodRollbackReorg, bind_eq_ok, toI64_eq_ok, exists_unit, require_eq_ok,
    pure_eq_ok, Prod.mk.injEq] at h
  obtain ⟨-, -, -, -, hnone, rfl, -⟩ := h
  refine ⟨fun k r hget hfinal => not_lt.mp fun habove => ?_, rfl, rfl⟩
  have hmem : r ∈ rowsWhere s.observations fun r =>
      r.finality = .final ∧ forkBlock < r.observation.blockNumber := by
    rw [rowsWhere, List.mem_filter, decide_eq_true_eq]
    exact ⟨List.mem_map_of_mem (Store.mem_of_get? hget), hfinal, habove⟩
  rw [List.length_eq_zero_iff.mp hnone] at hmem
  cases hmem

/-- Every operation keeps the rows, and changes them by the updates of finality
alone. -/
theorem step_follows {op : ObservationOp} {R : ObservationRow → ObservationRow → Prop}
    (hR : ∀ r, R r r) (htrans : ∀ {r₁ r₂ r₃}, R r₁ r₂ → R r₂ r₃ → R r₁ r₃)
    (hfinalize : ∀ now p r, R r (r.finalizeIf now p))
    (horphan : op.IsRollback → ∀ now p r, R r (r.orphanIf now p)) (h : s.step op = some s') :
    RowsFollow R s.observations s'.observations := by
  unfold step at h
  rw [toOption_eq_some] at h
  cases op with
  | applyScanRange os anchors cursorBlock cursorHash retain now =>
    obtain ⟨⟨s₁, applied⟩, hop, rfl⟩ := map_eq_ok.mp h
    obtain ⟨T, hrecord, -, -, rfl⟩ := robinhoodApplyScanRange_eq_ok.mp hop
    exact recordObservations_follow hR htrans hrecord
  | recordFinalObservation o now =>
    obtain ⟨⟨s₁, outcome⟩, hop, rfl⟩ := map_eq_ok.mp h
    rw [robinhoodRecordFinalObservation, bind_eq_ok] at hop
    obtain ⟨⟨T, outcome'⟩, hrecord, hop⟩ := hop
    have hfollow : RowsFollow R s.observations T := recordObservation_follow hR hrecord
    cases outcome' with
    | recorded =>
      obtain ⟨rfl, -⟩ := Prod.mk.inj (pure_eq_ok.mp hop)
      exact hfollow.trans htrans (finalizeRows_follow (hfinalize now _))
    | alreadyRecorded =>
      obtain ⟨rfl, -⟩ := Prod.mk.inj (pure_eq_ok.mp hop)
      exact hfollow
  | promoteFinal head depth now =>
    obtain ⟨⟨s₁, promoted⟩, hop, rfl⟩ := map_eq_ok.mp h
    simp only [robinhoodPromoteFinal, bind_eq_ok, toI64_eq_ok, pure_eq_ok, Prod.mk.injEq] at hop
    obtain ⟨x, -, y, -, rfl, -⟩ := hop
    exact finalizeRows_follow (hfinalize now _)
  | rollbackReorg forkBlock forkHash oldTipBlock oldTipHash now =>
    obtain ⟨⟨s₁, orphaned⟩, hop, rfl⟩ := map_eq_ok.mp h
    rw [(robinhoodRollbackReorg_eq_ok hop).2.1]
    exact orphanRows_follow (horphan trivial now _)

/-- A run takes every row only forward. -/
theorem final_advances (s : ObservationStore) (ops : List ObservationOp) :
    RowsFollow ObservationRow.Advances s.observations (Run.final step s ops).observations := by
  refine Run.relates (fun _ => True)
    (fun s s' : ObservationStore => RowsFollow ObservationRow.Advances s.observations s'.observations)
    (fun s => .refl ObservationRow.Advances.refl _) (fun h h' => h.trans (fun h h' => h.trans h') h')
    (fun _ _ _ _ _ => trivial) (fun s op s' _ hstep => ?_) trivial ops
  exact step_follows ObservationRow.Advances.refl (fun h h' => h.trans h')
    (fun _ _ _ => ObservationRow.finalizeIf_advances)
    (fun _ _ _ _ => ObservationRow.orphanIf_advances) hstep

/-- Without a rollback what is recorded stays recorded. -/
theorem final_records {o : DepositObservation} (ops : List ObservationOp)
    (h : Records s.observations o) (hops : ∀ e ∈ Run.history step s ops, ¬ e.2.IsRollback) :
    Records (Run.final step s ops).observations o := by
  have hkeep : ∀ (s : ObservationStore) (op : ObservationOp) (s' : ObservationStore),
      Records s.observations o → ¬ op.IsRollback → s.step op = some s' →
        Records s'.observations o := by
    intro s op s' hrec hop hstep
    exact (step_follows ObservationRow.StaysLive.refl (fun h h' => h.trans h')
      (fun _ _ _ => ObservationRow.finalizeIf_staysLive) (fun hroll => absurd hroll hop)
      hstep).records hrec
  exact Run.invariant_of_history hkeep h ops hops

/-! ## The main properties -/

/-- After a rollback to a block nothing provisional and no anchor is above it. -/
theorem rolledBack (h : s.robinhoodRollbackReorg forkBlock forkHash oldTipBlock oldTipHash now =
      .ok (s', orphaned)) :
    s'.robinhoodScanCursor = some (forkBlock, forkHash) ∧
      (∀ n ∈ s'.scannedBlocks.keys, n ≤ forkBlock) ∧
      ∀ k r, s'.observations.get? k = some r → r.finality = .provisional →
        r.observation.blockNumber ≤ forkBlock := by
  obtain ⟨-, hrows, hanchors⟩ := robinhoodRollbackReorg_eq_ok h
  have hbelow : ∀ n ∈ s'.scannedBlocks.keys, n ≤ forkBlock := by
    intro n hn
    rw [← Store.get?_isSome, hanchors, get?_anchorBlock, Store.get?_retain] at hn
    split_ifs at hn with hfork hle
    · exact le_of_eq hfork
    · exact of_decide_eq_true hle
    · cases hn
  refine ⟨?_, hbelow, ?_⟩
  · rw [robinhoodScanCursor_eq_some]
    refine ⟨?_, hbelow⟩
    rw [hanchors, get?_anchorBlock, if_pos rfl]
    rfl
  · intro k r hget hprovisional
    rw [hrows, orphanRows, Table.get?_mapValues, Option.map_eq_some_iff] at hget
    obtain ⟨r₀, -, rfl⟩ := hget
    unfold ObservationRow.orphanIf at hprovisional ⊢
    split_ifs at hprovisional ⊢ with hp
    · cases hprovisional
    · exact not_lt.mp fun habove => hp ⟨hprovisional, decide_eq_true habove⟩

/-- The highest anchor below the floor of a range stays, next to the cursor. -/
theorem retained (h : s.robinhoodApplyScanRange os anchors cursorBlock cursorHash retain now =
      .ok (s', applied)) :
    s'.scannedBlocks.get? cursorBlock = some ⟨cursorHash, now⟩ ∧
      ∀ n : ℕ, (n : ℤ) < cursorBlock - retain →
        n ∈ s.scannedBlocks.keys ∨ n ∈ anchors.map Prod.fst →
        (∀ m : ℕ, (m : ℤ) < cursorBlock - retain →
          m ∈ s.scannedBlocks.keys ∨ m ∈ anchors.map Prod.fst → m ≤ n) →
        n ∈ s'.scannedBlocks.keys ∧
          (n ∉ anchors.map Prod.fst → s'.scannedBlocks.get? n = s.scannedBlocks.get? n) := by
  obtain ⟨T, -, -, -, rfl⟩ := robinhoodApplyScanRange_eq_ok.mp h
  have hanchored : s.anchored (anchors ++ [(cursorBlock, cursorHash)]) now =
      anchorBlock (s.anchored anchors now) cursorBlock cursorHash now := by
    rw [anchored, List.foldl_append]
    rfl
  rw [hanchored]
  constructor
  · rw [get?_pruneAnchors, get?_anchorBlock, if_pos (.inl (by omega)), if_pos rfl]
  · intro n hn hmem hmax
    -- the anchors below the floor, with or without the cursor
    have hbelow : ∀ m : ℕ, (m : ℤ) < cursorBlock - retain →
        (anchorBlock (s.anchored anchors now) cursorBlock cursorHash now).get? m =
          (s.anchored anchors now).get? m := by
      intro m hm
      rw [get?_anchorBlock, if_neg (by omega)]
    have hanchor : ∀ m, ((s.anchored anchors now).get? m).isSome ↔
        m ∈ s.scannedBlocks.keys ∨ m ∈ anchors.map Prod.fst := by
      intro m
      rcases get?_foldl_anchorBlock s.scannedBlocks anchors now m with
        ⟨hout, hget⟩ | ⟨hash, hin, hget⟩
      · rw [anchored, hget, Store.get?_isSome]
        simp only [hout, or_false]
      · rw [anchored, hget]
        exact iff_of_true rfl (.inr (List.mem_map_of_mem hin))
    have hhighest : highestBelow (anchorBlock (s.anchored anchors now) cursorBlock cursorHash now)
        (cursorBlock - retain) = some n := by
      rw [highestBelow_eq_some, hbelow n hn, hanchor]
      refine ⟨⟨hmem, hn⟩, fun m hm hlt => hmax m hlt ?_⟩
      rwa [hbelow m hlt, hanchor] at hm
    have hget : (pruneAnchors (anchorBlock (s.anchored anchors now) cursorBlock cursorHash now)
        (cursorBlock - retain)).get? n = (s.anchored anchors now).get? n := by
      rw [get?_pruneAnchors, if_pos (.inr hhighest), hbelow n hn]
    constructor
    · rw [← Store.get?_isSome, hget, hanchor]
      exact hmem
    · intro hout
      rw [hget]
      rcases get?_foldl_anchorBlock s.scannedBlocks anchors now n with
        ⟨-, hsame⟩ | ⟨hash, hin, -⟩
      · exact hsame
      · exact absurd (List.mem_map_of_mem hin) hout

/-- A range that was applied changes no observation when it is applied again,
whatever was done since, if nothing was rolled back. -/
theorem reapplied (h : s.robinhoodApplyScanRange os anchors cursorBlock cursorHash retain now =
      .ok (s', applied)) (ops : List ObservationOp)
    (hops : ∀ e ∈ Run.history step s' ops, ¬ e.2.IsRollback) (now' : ℤ) :
    ∃ s'', (Run.final step s' ops).robinhoodApplyScanRange os anchors cursorBlock cursorHash retain
        now' = .ok (s'', ⟨0, os.length⟩) ∧
      s''.observations = (Run.final step s' ops).observations := by
  obtain ⟨T, hrecord, hblocks, hretain, rfl⟩ := robinhoodApplyScanRange_eq_ok.mp h
  have hrecords : ∀ o ∈ os, o.obligationIndex < 2 ^ 63 ∧
      Records (Run.final step _ ops).observations o := fun o ho =>
    ⟨(records_of_recordObservations hrecord o ho).1,
      final_records ops (records_of_recordObservations hrecord o ho).2 hops⟩
  have hagain : recordObservations now' _ ⟨0, 0⟩ os = .ok (_, ⟨0, 0 + os.length⟩) :=
    recordObservations_again hrecords
  rw [Nat.zero_add] at hagain
  exact ⟨_, robinhoodApplyScanRange_eq_ok.mpr ⟨_, hagain, hblocks, hretain, rfl⟩, rfl⟩

theorem after_append (ops ops' : List ObservationOp) :
    after (ops ++ ops') = Run.final step (after ops) ops' := Run.final_append

/-- What holds of the store after every run: an identity has one live row; rows
only go forward; an error changes nothing; a rollback leaves nothing provisional
above the fork; a range keeps its cursor and the highest anchor below its floor;
and a range changes no observation when it is applied again. -/
theorem observation_store (ops : List ObservationOp) :
    (∀ k₁ k₂ r₁ r₂, (after ops).observations.get? k₁ = some r₁ →
      (after ops).observations.get? k₂ = some r₂ → r₁.Live → r₂.Live →
      r₁.observation.sourceContract = r₂.observation.sourceContract →
      r₁.observation.obligationIndex = r₂.observation.obligationIndex → k₁ = k₂) ∧
    (∀ ops', RowsFollow ObservationRow.Advances (after ops).observations
      (after (ops ++ ops')).observations) ∧
    (∀ op e, (after ops).run op = .error e → after (ops ++ [op]) = after ops) ∧
    (∀ forkBlock forkHash oldTipBlock oldTipHash now s' orphaned,
      (after ops).robinhoodRollbackReorg forkBlock forkHash oldTipBlock oldTipHash now =
        .ok (s', orphaned) →
      s'.robinhoodScanCursor = some (forkBlock, forkHash) ∧
        (∀ n ∈ s'.scannedBlocks.keys, n ≤ forkBlock) ∧
        ∀ k r, s'.observations.get? k = some r → r.finality = .provisional →
          r.observation.blockNumber ≤ forkBlock) ∧
    (∀ os anchors cursorBlock cursorHash retain now s' applied,
      (after ops).robinhoodApplyScanRange os anchors cursorBlock cursorHash retain now =
        .ok (s', applied) →
      (s'.scannedBlocks.get? cursorBlock = some ⟨cursorHash, now⟩ ∧
        ∀ n : ℕ, (n : ℤ) < cursorBlock - retain →
          n ∈ (after ops).scannedBlocks.keys ∨ n ∈ anchors.map Prod.fst →
          (∀ m : ℕ, (m : ℤ) < cursorBlock - retain →
            m ∈ (after ops).scannedBlocks.keys ∨ m ∈ anchors.map Prod.fst → m ≤ n) →
          n ∈ s'.scannedBlocks.keys ∧ (n ∉ anchors.map Prod.fst →
            s'.scannedBlocks.get? n = (after ops).scannedBlocks.get? n)) ∧
      ∀ ops', (∀ e ∈ Run.history step s' ops', ¬ e.2.IsRollback) → ∀ now', ∃ s'',
        (Run.final step s' ops').robinhoodApplyScanRange os anchors cursorBlock cursorHash retain
          now' = .ok (s'', ⟨0, os.length⟩) ∧
        s''.observations = (Run.final step s' ops').observations) := by
  refine ⟨?unique, ?forward, ?error, ?rollback, ?range⟩
  case unique =>
    intro k₁ k₂ r₁ r₂ h₁ h₂ hlive₁ hlive₂ hcontract hindex
    exact live_unique h₁ h₂ hlive₁ hlive₂ hcontract hindex
  case forward =>
    intro ops'
    rw [after_append]
    exact final_advances (after ops) ops'
  case error =>
    intro op e herror
    have hnone : (after ops).step op = none := by
      rw [step, herror]
      rfl
    rw [after_append, Run.final_cons, Run.final_nil, Run.advance_of_none hnone]
  case rollback =>
    intro forkBlock forkHash oldTipBlock oldTipHash now s' orphaned h
    exact rolledBack h
  case range =>
    intro os anchors cursorBlock cursorHash retain now s' applied h
    exact ⟨retained h, fun ops' hops now' => reapplied h ops' hops now'⟩

/-- A deposit in block 7, and a range that ends with its block. -/
def sampleRange : ObservationOp :=
  .applyScanRange [⟨10, 0, .rhnToGlc, 20, [1], 5000, 5, 30, 0, 7, 77⟩] [(7, 77)] 9 99 3 100

theorem observation_store_sample :
    ∃ s' orphaned, (after [sampleRange]).robinhoodRollbackReorg 4 44 9 99 200 = .ok (s', orphaned) ∧
      s'.robinhoodScanCursor = some (4, 44) := by
  have hsome : ((after [sampleRange]).robinhoodRollbackReorg 4 44 9 99 200).toOption.isSome := by
    decide +kernel
  obtain ⟨⟨s', orphaned⟩, h⟩ := Option.isSome_iff_exists.mp hsome
  rw [toOption_eq_some] at h
  exact ⟨s', orphaned, h, ((observation_store [sampleRange]).2.2.2.1 4 44 9 99 200 s' orphaned h).1⟩

end ObservationStore

end Service.Robinhood
