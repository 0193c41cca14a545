-- SUMMARY: What a rollback of orphaned blocks does to every request: observed deposits are forgotten, and final or parked ones stay.
import ReserveBridge.Service.Goldcoin.Indexer
import ReserveBridge.Service.Ledger.Effects

/-!
# Rollback

A rollback drops the blocks above the fork, and takes back the observation of a
deposit that stood in one of them. It does so by the state of the request:
observed and confirming rows return to awaiting their deposit. A row whose
deposit was final is reported before, and a row that was parked keeps it.
-/

namespace Service
open Guard

/-! ## One row -/

namespace Request

/-- The rows a rollback takes back. -/
def Orphaned (r : Request) (forkHeight : ℤ) : Prop :=
  r.direction.sourceIsGoldcoin ∧ (r.state = .depositObserved ∨ r.state = .confirming) ∧
    ∃ h ∈ r.sourceBlockHeight, forkHeight < h

instance (r : Request) (forkHeight : ℤ) : Decidable (r.Orphaned forkHeight) :=
  inferInstanceAs (Decidable (_ ∧ _))

/-- The deposit was final once, and the row has left the early states for good. -/
def LeftEarly (r : Request) : Prop := r.sourceFinalizedAt.isSome → r.isEarly = false

end Request

namespace Transition

variable {op : Op} {id : ℕ} {r r' : Request} {δ : ℤ × ℤ}

/-- No transition leads back to the early states. -/
theorem leftEarly (h : Transition op id r r' δ) (hleft : r.LeftEarly) : r'.LeftEarly := by
  -- an early row was never final
  have early (hstate : r.isEarly = true) (hsame : r'.sourceFinalizedAt = r.sourceFinalizedAt) :
      r'.LeftEarly := by
    intro hsome
    rw [hsame] at hsome
    rw [hleft hsome] at hstate
    cases hstate
  cases h with
  | expired h => exact early (by rw [Request.isEarly, h]) rfl
  | observed hop source h₀ h₁ h hnet =>
    have hrows := (h₀.rows.trans h₁.rows).trans h.rows
    refine early ?_ hrows.sourceFinalizedAt
    cases h₀ with
    | awaiting h => rw [Request.isEarly, h]
    | readmitted h => rw [Request.isEarly, h]
  | reorged h =>
    refine early ?_ rfl
    rcases h with h | h <;> rw [Request.isEarly, h]
  | confirmations | reviewed | releaseAttested | payoutBuilt | payoutConfirmations
  | completionSubmitted | goldcoinRefundSigned | robinhoodTx => exact hleft
  | solanaRefundBroadcast hf h =>
    split_ifs
    · exact fun _ => rfl
    · exact hleft
  | releaseConfirmed h destination => split_ifs <;> exact fun _ => rfl
  | robinhoodPayoutSettled hop destination h => split_ifs <;> exact fun _ => rfl
  | _ => exact fun _ => rfl

end Transition

theorem Inserted.leftEarly {r : Request} {δ : ℤ × ℤ} (h : Inserted r δ) : r.LeftEarly := by
  cases h with
  | awaiting fresh state source final =>
    intro hsome
    rw [final] at hsome
    cases hsome
  | admitted fresh source state => exact fun _ => by rw [Request.isEarly, state]
  | parked fresh source state note => exact fun _ => by rw [Request.isEarly, state]

namespace Ledger

variable {ops : List Op} {l : Ledger} {rows : List (ℕ × Request)}

theorem leftEarly_after {id : ℕ} {r : Request} (hget : (after ops).requests.get? id = some r) :
    r.LeftEarly := by
  let Kept (l : Ledger) : Prop := l.Wf ∧ ∀ id r, l.requests.get? id = some r → r.LeftEarly
  have hinit : Kept empty := by
    refine ⟨wf_empty, fun id r hget => ?_⟩
    cases hget
  have hstep (l : Ledger) (op : Op) (l' : Ledger) (h : Kept l) (hstep : l.step op = some l') :
      Kept l' :=
    ⟨Wf.step h.1 hstep, (effect_of_step h.1 hstep).forall_rows (fun _ _ _ hi => hi.leftEarly)
      (fun _ _ _ _ ht => ht.leftEarly) h.2⟩
  have hall : Kept (after ops) := Run.invariant hstep hinit ops
  exact hall.2 id r hget

/-! ## All rows -/

/-- A loop that replaces rows which were read before it starts. -/
theorem get?_foldl_setRequest (f : Request → Request) (hnodup : (rows.map Prod.fst).Nodup)
    (hrows : ∀ e ∈ rows, l.requests.get? e.1 = some e.2) (id : ℕ) :
    (rows.foldl (fun l e => l.setRequest e.1 (f e.2)) l).requests.get? id =
      (l.requests.get? id).map fun r => if id ∈ rows.map Prod.fst then f r else r := by
  induction rows generalizing l with
  | nil => simp
  | cons e rows ih =>
    rw [List.map_cons, List.nodup_cons] at hnodup
    have hget := hrows e List.mem_cons_self
    have hset (k : ℕ) := get?_setRequest hget (f e.2) k
    rw [List.foldl_cons, ih hnodup.2 fun e' he' => ?_, hset]
    · by_cases hid : id = e.1
      · subst hid
        have hmem : e.1 ∈ (e :: rows).map Prod.fst := List.mem_map_of_mem List.mem_cons_self
        rw [if_pos rfl, hget, Option.map_some, Option.map_some, if_neg hnodup.1, if_pos hmem]
      · have hmem : id ∈ (e :: rows).map Prod.fst ↔ id ∈ rows.map Prod.fst := by
          rw [List.map_cons, List.mem_cons, or_iff_right hid]
        rw [if_neg hid]
        simp only [hmem]
    · have hne : e'.1 ≠ e.1 := fun heq => hnodup.1 (heq ▸ List.mem_map_of_mem he')
      rw [hset, if_neg hne]
      exact hrows e' (List.mem_cons_of_mem e he')

theorem mem_orphanedRows {forkHeight : ℤ} {id : ℕ} {r : Request} (hget : l.requests.get? id = some r) :
    id ∈ (l.orphanedRows forkHeight).map Prod.fst ↔ r.Orphaned forkHeight := by
  rw [List.mem_map]
  constructor
  · rintro ⟨e, he, rfl⟩
    obtain rfl := Option.some.inj (hget.symm.trans (get?_of_mem_filter he))
    exact of_decide_eq_true (List.mem_filter.mp he).2
  · intro h
    exact ⟨(id, r), List.mem_filter.mpr ⟨Store.mem_of_get? hget, decide_eq_true h⟩, rfl⟩

/-- A rollback takes back what is orphaned, and nothing else. -/
theorem get?_goldcoinRollbackReorg (l : Ledger) (forkHeight : ℤ) (id : ℕ) :
    (l.goldcoinRollbackReorg forkHeight).requests.get? id =
      (l.requests.get? id).map fun r => if r.Orphaned forkHeight then r.unobserve else r := by
  have hnodup : ((l.orphanedRows forkHeight).map Prod.fst).Nodup := nodup_filter_keys _
  have hrows (e : ℕ × Request) (he : e ∈ l.orphanedRows forkHeight) :
      l.requests.get? e.1 = some e.2 := get?_of_mem_filter he
  rw [goldcoinRollbackReorg, get?_foldl_setRequest Request.unobserve hnodup hrows]
  cases hget : l.requests.get? id with
  | none => rfl
  | some r =>
    rw [Option.map_some, Option.map_some]
    exact congrArg some (if_congr (mem_orphanedRows hget) rfl rfl)

end Ledger

end Service

/-! ## The rollback of the indexer -/

namespace Service.Goldcoin.Indexer
open Guard

/-- After a rollback no block lies above the fork, and those below are as they
were. Of the requests, those that were observed or confirming in a block above
the fork await their deposit again, without its outpoint, its block and the lock
of its quote. Every other one is unchanged, and among them all whose deposit was
recorded as final. Of these, the rollback reports those whose block is gone. -/
theorem rollback_takes_back (N : Indexer) (ops : List Op) (hledger : N.ledger = .after ops)
    (forkHeight : ℤ) :
    (∀ h b, (N.rollbackReorg forkHeight).blocks.get? h = some b → h ≤ forkHeight) ∧
    (∀ h ≤ forkHeight, (N.rollbackReorg forkHeight).blocks.get? h = N.blocks.get? h) ∧
    ∀ id r, N.ledger.requests.get? id = some r →
      ∃ r', (N.rollbackReorg forkHeight).ledger.requests.get? id = some r' ∧
        (r.Orphaned forkHeight → r'.state = .awaitingDeposit ∧
          (r'.sourceTxid = none ∧ r'.sourceVout = none) ∧
          (r'.sourceBlockHeight = none ∧ r'.sourceBlockHash = none) ∧ r'.quoteLockedAt = none) ∧
        (¬ r.Orphaned forkHeight → r' = r) ∧
        (r.sourceFinalizedAt.isSome → r' = r ∧
          (r.direction.sourceIsGoldcoin → (∃ h ∈ r.sourceBlockHeight, forkHeight < h) →
            id ∈ N.detectPostFinalityReorg forkHeight)) := by
  refine ⟨fun h b hget => ?_, fun h hle => ?_, fun id r hget => ?_⟩
  · rw [rollbackReorg, Store.get?_retain] at hget
    split_ifs at hget with hle
    exact of_decide_eq_true hle
  · rw [rollbackReorg, Store.get?_retain, if_pos (decide_eq_true hle)]
  · have hrow : (N.rollbackReorg forkHeight).ledger.requests.get? id =
        some (if r.Orphaned forkHeight then r.unobserve else r) := by
      rw [rollbackReorg, Ledger.get?_goldcoinRollbackReorg, hget, Option.map_some]
    refine ⟨_, hrow, fun h => ?_, fun h => if_neg h, fun hfinal => ⟨if_neg ?_, fun hsource habove => ?_⟩⟩
    · rw [if_pos h]
      exact ⟨rfl, ⟨rfl, rfl⟩, ⟨rfl, rfl⟩, rfl⟩
    · -- a row that was final has left the early states
      intro horphaned
      have hleft : r.LeftEarly := by
        rw [hledger] at hget
        exact Ledger.leftEarly_after hget
      have hearly := hleft hfinal
      rcases horphaned.2.1 with hstate | hstate <;> rw [Request.isEarly, hstate] at hearly <;>
        cases hearly
    · refine List.mem_map.mpr ⟨(id, r), List.mem_filter.mpr ⟨Store.mem_of_get? hget, ?_⟩, rfl⟩
      exact decide_eq_true ⟨hsource, hfinal, habove⟩

/-- A request for Solana, and its deposit in block 10. -/
def sampleDeposit : GlcDeposit where
  txid := 40
  vout := 0
  amount := 1000
  blockHeight := 10
  blockHash := 100
  sourceWallets := []

/-- The request with its deposit, which a lock is struck for. -/
def sampleObserved (band : Bool) : List Op :=
  [.configureReserve .solanaReserve 1000000 0,
    .createRequest .glcToSol Ledger.sampleAmounts (List.replicate 32 1) none none 3600 100,
    .recordGlcDepositObserved 1 sampleDeposit (fun _ _ _ _ _ => .ok ⟨0, 1000, band⟩) 200]

theorem rollback_takes_back_sample :
    ∃ r', ({ empty with ledger := .after (sampleObserved false) }.rollbackReorg 9).ledger.requests.get? 1 =
        some r' ∧ r'.state = .awaitingDeposit ∧ r'.sourceTxid = none ∧ r'.quoteLockedAt = none := by
  have hrow : ((Ledger.after (sampleObserved false)).requests.get? 1).map
      (fun r => decide (r.Orphaned 9)) = some true := by decide
  obtain ⟨r, hget, horphaned⟩ := Option.map_eq_some_iff.mp hrow
  obtain ⟨r', hget', htaken, -⟩ := (rollback_takes_back
    { empty with ledger := .after (sampleObserved false) } (sampleObserved false) rfl 9).2.2 1 r hget
  obtain ⟨hstate, ⟨htxid, -⟩, -, hquote⟩ := htaken (of_decide_eq_true horphaned)
  exact ⟨r', hget', hstate, htxid, hquote⟩

/-- A deposit that was parked for its price, before it was final, keeps the
outpoint of an orphaned block, and its quote stays locked. -/
theorem rollback_keeps_parked :
    ((Ledger.after (sampleObserved true)).requests.get? 1).map
        (fun (r : Request) => (r.state, r.sourceBlockHeight, r.sourceFinalizedAt)) =
      some (.manualReview, some 10, none) ∧
    (({ empty with ledger := .after (sampleObserved true) }.rollbackReorg 9).ledger.requests.get? 1).map
        (fun (r : Request) => (r.state, r.sourceTxid, r.sourceVout, r.quoteLockedAt)) =
      some (.manualReview, some 40, some 0, some 200) := by
  decide

end Service.Goldcoin.Indexer
