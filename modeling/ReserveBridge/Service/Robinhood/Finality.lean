-- SUMMARY: Whether the finality of a mined operation is carried over to its request, over runs of the ticks against a chain that may mine any signed version and a node that may fail any question.
import ReserveBridge.Service.Ledger.Step
import ReserveBridge.Service.Robinhood.Recovery

/-!
# Finality reaches the request

The daemon runs next to a chain, on which one version of an operation is mined:
the bytes that were signed first, or those of a replacement. The row tracks the
version that was signed last. A row that was promoted is not polled again, and
one that was parked is not either, so what remains to be done for the request
has to be done before.
-/

namespace Service.Ledger
open Guard

variable {l : Ledger} {id : ℕ} {r : Request}

/-! ## What the ledger records -/

theorem exists_payoutSettled (hget : l.requests.get? id = some r)
    (hdestination : r.direction.destinationIsRobinhood) :
    ∃ l', l.markRobinhoodPayoutSettled id = .ok l' := by
  simp only [markRobinhoodPayoutSettled, bind_eq_ok, request_eq_ok, require_eq_ok, exists_unit]
  by_cases hdone : r.state = .settled ∨ r.state = .destinationConfirmed ∧ ¬ r.direction.settlesOnPayout
  · exact ⟨_, r, hget, hdestination, by rw [if_pos hdone]; rfl⟩
  · exact ⟨_, r, hget, hdestination, by rw [if_neg hdone]; rfl⟩

theorem exists_settleConfirmed (hget : l.requests.get? id = some r)
    (hsource : r.direction.sourceIsRobinhood)
    (hstate : r.state = .settled ∨ r.state = .destinationConfirmed) :
    ∃ l', l.robinhoodSettleConfirmed id = .ok l' := by
  simp only [robinhoodSettleConfirmed, bind_eq_ok, request_eq_ok, require_eq_ok, exists_unit]
  by_cases hdone : r.state = .settled
  · exact ⟨_, r, hget, hsource, by rw [if_pos hdone]; rfl⟩
  · have hconfirmed := hstate.resolve_left hdone
    by_cases hgoldcoin : r.direction = .rhnToGlc
    · exact ⟨_, r, hget, hsource, by rw [if_neg hdone, hconfirmed, if_pos hgoldcoin]; rfl⟩
    · exact ⟨_, r, hget, hsource, by rw [if_neg hdone, hconfirmed, if_neg hgoldcoin]; rfl⟩

theorem exists_refundConfirmed (hget : l.requests.get? id = some r)
    (hsource : r.direction.sourceIsRobinhood)
    (hstate : r.state = .refunded ∨ r.state = .refundPending ∨ r.state = .refundBroadcast) :
    ∃ l', l.markRobinhoodRefundConfirmed id = .ok l' := by
  simp only [markRobinhoodRefundConfirmed, bind_eq_ok, request_eq_ok, require_eq_ok, exists_unit]
  by_cases hdone : r.state = .refunded
  · exact ⟨_, r, hget, hsource, by rw [if_pos hdone]; rfl⟩
  · refine ⟨l.setRequest id (r.transition .refunded), r, hget, hsource, ?_⟩
    rw [if_neg hdone]
    simp only [bind_eq_ok, require_eq_ok, exists_unit, pure_eq_ok, and_true]
    exact hstate.resolve_left hdone

end Service.Ledger

namespace Service.Robinhood
open Guard

/-- The version of an operation that was mined. -/
structure Mined where
  txHash : ℕ
  success : Bool
  blockNumber : ℕ
  blockHash : ℕ
  deriving DecidableEq, Repr

def EvmReceipt.mined (r : EvmReceipt) : Mined :=
  ⟨r.txHash, r.success, r.blockNumber, r.blockHash⟩

/-! ## What a poll writes -/

namespace Tables

variable {T T' : Tables} {id : ℕ} {t : Tx} {now : ℤ} {state : RobinhoodTxState}

/-- The receipt of a successful transaction is recorded, where none of another
block is. -/
theorem recordReceipt_row {blockNumber blockHash : ℕ} (hget : T.transactions.get? id = some t)
    (hstate : t.state = .broadcast ∨ t.state = .included)
    (hblock : ∀ b ∈ t.receiptBlockNumber, b = asI64 blockNumber)
    (h : T.recordReceipt id true blockNumber blockHash now = .ok (state, T')) :
    state = .included ∧
      T'.transactions.get? id = some (t.mined true (asI64 blockNumber) blockHash now) := by
  simp only [recordReceipt, bind_eq_ok, tx_eq_ok] at h
  obtain ⟨t₀, hget₀, h⟩ := h
  obtain rfl := Option.some.inj (hget₀.symm.trans hget)
  have hsame : (t₀.receiptBlockNumber.filter fun stored => stored ≠ asI64 blockNumber) = none := by
    rw [Option.filter_eq_none_iff]
    intro b hb
    simp [hblock b hb]
  have hactive : isTerminal t₀.state = false := by
    rcases hstate with hstate | hstate <;> rw [hstate] <;> rfl
  rw [hsame] at h
  simp only [hactive, Bool.false_eq_true, if_false, bind_eq_ok, require_eq_ok, exists_unit,
    pure_eq_ok, Prod.mk.injEq, if_true] at h
  obtain ⟨-, T₁, hset, rfl, rfl⟩ := h
  exact ⟨rfl, ((setTx_eq_ok hset hget).get? id).trans (if_pos rfl)⟩

/-- An included row is promoted when it is deep enough. -/
theorem updateConfirmations_row {confirmations : ℤ} {required : ℕ} {promoted : Bool}
    (hget : T.transactions.get? id = some t) (hstate : t.state = .included)
    (h : T.updateConfirmations id confirmations required now = .ok (promoted, T')) :
    (promoted = true ↔ asI64 required ≤ confirmations) ∧
      T'.transactions.get? id = some (if promoted then (t.confirm confirmations now).finalize now
        else t.confirm confirmations now) := by
  simp only [updateConfirmations, bind_eq_ok, tx_eq_ok] at h
  obtain ⟨t₀, hget₀, h⟩ := h
  obtain rfl := Option.some.inj (hget₀.symm.trans hget)
  rw [if_neg (by simp [hstate])] at h
  simp only [bind_eq_ok, require_eq_ok, exists_unit, pure_eq_ok, Prod.mk.injEq] at h
  obtain ⟨-, T₁, hset, rfl, rfl⟩ := h
  refine ⟨decide_eq_true_iff, ((setTx_eq_ok hset hget).get? id).trans ?_⟩
  simp

end Tables

/-! ## The version that was mined -/

/-- Until it is included, a row has no receipt. -/
def Unread (t : Tx) : Prop :=
  t.state = .authorizing ∨ t.state = .authorized ∨ t.state = .signed ∨ t.state = .broadcast →
    t.receiptBlockNumber = none

/-- The row tracks the version that was mined, and is on the way to its
receipt. -/
structure Tracked (m : Mined) (t : Tx) : Prop where
  txHash : t.txHash = some m.txHash
  state : t.state = .signed ∨ t.state = .broadcast ∨ t.state = .included
  block : ∀ b ∈ t.receiptBlockNumber, b = asI64 m.blockNumber

section Rows

variable {T : Tables} {op : Op} {id : ℕ} {t t' : Tx} {m : Mined}

theorem Unread.edge (h : Unread t) (hedge : Edge T id t op t') : Unread t' := by
  cases hedge with
  | authorized hlength hdistinct hnone hstate => exact fun _ => h (.inl hstate)
  | allocated hchain hnone hstate hnext => exact h
  | signed hnone hstate => exact fun _ => h (.inr (.inl hstate))
  | sent hstate => exact fun _ => h (.inr (.inr hstate))
  | replaced hstate hnonce => exact h
  | @mined success =>
    intro hstate
    cases success <;> simp [Tx.mined] at hstate
  | confirmed hstate => exact h
  | receiptMoved | finalized | parked =>
    intro hstate
    simp [Tx.park, Tx.finalize] at hstate

theorem Unread.reconcile (landed : Landed) (now : ℤ) : Unread (t.reconcile landed now) := by
  intro hstate
  simp [Tx.reconcile] at hstate

/-- Another broadcast of the same bytes. -/
theorem Tracked.send (h : Tracked m t) (now : ℤ) : Tracked m (t.send now) :=
  ⟨h.txHash, .inr (.inl rfl), h.block⟩

theorem Tracked.mined (h : Tracked m t) (now : ℤ) :
    Tracked m (t.mined true (asI64 m.blockNumber) m.blockHash now) :=
  ⟨h.txHash, .inr (.inr rfl), by simp [Tx.mined]⟩

theorem Tracked.confirm (h : Tracked m t) (confirmations now : ℤ) :
    Tracked m (t.confirm confirmations now) := ⟨h.txHash, h.state, h.block⟩

end Rows

/-- The call that sends a row's bytes once more. -/
def Op.rebroadcasts : Op → Bool
  | .recordBroadcast .. => true
  | _ => false

namespace Daemon

variable {P : Op → Bool} {D D' : Daemon} {id : ℕ} {m : Mined} {mined : ℕ → Option Mined}

/-- The operation was carried over to its request, or its row is on the way to
the receipt. -/
def Pursues (D : Daemon) (id : ℕ) (m : Mined) : Prop :=
  id ∈ D.completed ∨ ∃ t, D.row id = some t ∧ Tracked m t

/-- Every operation that was executed is pursued. -/
structure Pursuing (mined : ℕ → Option Mined) (D : Daemon) : Prop where
  pursues : ∀ id m, mined id = some m → m.success → D.Pursues id m
  unread : ∀ id t, D.row id = some t → Unread t

/-- Steps that send a row's bytes and nothing else. -/
theorem Moves.pursues (h : Moves Op.rebroadcasts id D D') (hD : D.Pursues id m) :
    D'.Pursues id m := by
  induction h with
  | refl => exact hD
  | tail _ hmove ih =>
    cases hmove with
    | wrote op hrow hsends happly =>
      rcases ih with hdone | ⟨t, hget, ht⟩
      · exact .inl hdone
      · rcases (Tables.effect_of_apply happly).cases_row hget with hsame | ⟨t', hget', hedge, -⟩
        · exact .inr ⟨t, hsame, ht⟩
        · refine .inr ⟨t', hget', ?_⟩
          cases hedge with
          | sent hstate => exact ht.send _
          | _ => cases hsends
    | asked x hid => exact ih
    | reconciled landed now hok => exact .inl List.mem_cons_self
    | finished l completed hcompleted =>
      rcases ih with hdone | htracked
      · rcases hcompleted with rfl | rfl
        · exact .inl hdone
        · exact .inl (List.mem_cons_of_mem id hdone)
      · exact .inr htracked

/-- Steps with one row keep all operations pursued, if they keep that one. -/
theorem Pursuing.moves (h : D.Pursuing mined) (hmoves : Moves P id D D')
    (hrow : ∀ m t, mined id = some m → m.success → D.row id = some t → Tracked m t →
      D'.Pursues id m) : D'.Pursuing mined where
  pursues k m hmined hsuccess := by
    rcases h.pursues k m hmined hsuccess with hdone | ⟨t, hget, ht⟩
    · exact .inl (hmoves.completed hdone)
    · by_cases hk : k = id
      · subst hk
        exact hrow m t hmined hsuccess hget ht
      · exact .inr ⟨t, (hmoves.frame hk).trans hget, ht⟩
  unread := hmoves.forall_rows (fun _ h hedge => h.edge hedge) (fun _ _ _ => Unread.reconcile _ _)
    h.unread

end Daemon

/-! ## What a row's turn keeps -/

/-- The proof of a settlement that was mined does not hold. -/
def Verdict.refuses : Verdict → Bool
  | .refuse _ => true
  | .safeToReconcile _ | .alreadyReconciled => false

namespace Settler
open Daemon

variable {s : Settler} {u : Submitter} {D : Daemon} {id : ℕ} {t : Tx} {stop : Option ℕ} {now : ℤ}
  {m : Mined}

/-- The operation is not one that is proven from the chain, or the proof is
refused. -/
def unproven (t : Tx) (w : SendAnswers) : Prop :=
  t.kind ≠ .settlement ∨ t.requestId = none ∨ ∃ v ∈ w.verdict, v.refuses

instance (t : Tx) (w : SendAnswers) : Decidable (unproven t w) := inferInstanceAs (Decidable (_ ∨ _))

/-- The bytes of the row are given up: for a human, or for other bytes. -/
def leavesVersion (s : Settler) (u : Submitter) (t : Tx) (w : SendAnswers) (now : ℤ) : Prop :=
  if broadcastIsStale t now ∨ u.replacementDue t now = none then unproven t w
  else u.replacementDue t now = some true ∧ (s.buildCall t).toOption.isSome ∧ t.nonce.isSome ∧
    (u.readFees w (t.replacementAttempts.toNat + 1)).isSome

instance (s : Settler) (u : Submitter) (t : Tx) (w : SendAnswers) (now : ℤ) :
    Decidable (s.leavesVersion u t w now) := by
  unfold leavesVersion
  infer_instance

theorem reconcileOrPark_rebroadcasts {w : SendAnswers} {reason : Option String → String}
    (hproven : ¬ unproven t w ∨ stop = some 0) :
    Moves Op.rebroadcasts id D (reconcileOrPark D id t w reason stop now) := by
  rcases hproven with hproven | rfl
  · unfold unproven at hproven
    rw [not_or, not_or] at hproven
    obtain ⟨hkind, hrequest, hverdict⟩ := hproven
    unfold reconcileOrPark
    rw [if_neg (not_or.mpr ⟨hkind, hrequest⟩)]
    split
    · exact .refl
    · exact .refl
    · rename_i refusal hrefuse
      exact absurd ⟨_, hrefuse, rfl⟩ hverdict
    · rename_i landed _
      split
      · split
        · exact .refl
        · rename_i hok
          exact .single (.reconciled landed now hok)
      · exact .refl
  · rw [reconcileOrPark_of_stop]

theorem rebroadcastOrReplace_rebroadcasts {w : SendAnswers}
    (hkeeps : ¬ s.leavesVersion u t w now ∨ stop = some 0) :
    Moves Op.rebroadcasts id D (s.rebroadcastOrReplace u D id t w stop now) := by
  unfold rebroadcastOrReplace
  split
  · rename_i hstale
    refine reconcileOrPark_rebroadcasts (hkeeps.imp_left fun hleaves hunproven => hleaves ?_)
    unfold leavesVersion
    rwa [if_pos (.inl hstale)]
  · rename_i hstale
    split
    · split
      · split
        · exact .refl
        · rename_i D₁ hsent
          refine (sends_moves hsent).trans ?_
          split
          · exact write_moves (.recordBroadcast id now) rfl rfl rfl fun _ _ => .refl
          · exact .refl
      · exact .refl
    · rename_i hdue
      split
      · rename_i call nonce fees hcall hnonce hfees
        rcases hkeeps with hleaves | rfl
        · refine absurd ?_ hleaves
          unfold leavesVersion
          rw [if_neg (by simp [hstale, hdue])]
          exact ⟨hdue, by rw [hcall]; rfl, by rw [hnonce]; rfl, by rw [hfees]; rfl⟩
        · dsimp only
          rw [write_of_stop fun h => absurd (h 0 rfl) (by decide)]
      · exact .refl
    · rename_i hdue
      refine reconcileOrPark_rebroadcasts (hkeeps.imp_left fun hleaves hunproven => hleaves ?_)
      unfold leavesVersion
      rwa [if_pos (.inr hdue)]

/-- The ledger records the finality of the operation for its request. -/
def accepts (l : Ledger) (t : Tx) : Bool :=
  t.kind = .treasuryWithdraw || (t.requestId.bind l.requests.get?).any fun r =>
    match t.kind with
    | .payout => r.direction.destinationIsRobinhood
    | .settlement => r.direction.sourceIsRobinhood &&
        decide (r.state = .settled ∨ r.state = .destinationConfirmed)
    | .refund => r.direction.sourceIsRobinhood &&
        decide (r.state = .refunded ∨ r.state = .refundPending ∨ r.state = .refundBroadcast)
    | .treasuryWithdraw => true

theorem onFinalized_of_accepts (D : Daemon) (id : ℕ) (h : accepts D.ledger t = true) :
    ∃ l, onFinalized D id t = .ok { D with ledger := l, completed := id :: D.completed } := by
  unfold onFinalized
  by_cases htreasury : t.kind = .treasuryWithdraw
  · rw [if_pos htreasury]
    exact ⟨D.ledger, rfl⟩
  · rw [if_neg htreasury]
    simp only [accepts, htreasury, decide_false, Bool.false_or, Option.any_eq_true,
      Option.bind_eq_some_iff] at h
    obtain ⟨r, ⟨requestId, hrequest, hget⟩, hkind⟩ := h
    have hread : D.ledger.request requestId = .ok r := Ledger.request_eq_ok.mpr hget
    simp only [bind_eq_ok, orFail_eq_ok, mapError_eq_ok, pure_eq_ok]
    suffices hok : ∃ l, (match t.kind with
        | .payout => D.ledger.markRobinhoodPayoutSettled requestId
        | .settlement => D.ledger.robinhoodSettleConfirmed requestId
        | .refund => D.ledger.markRobinhoodRefundConfirmed requestId
        | .treasuryWithdraw => .ok D.ledger) = .ok l by
      obtain ⟨l, hl⟩ := hok
      exact ⟨l, requestId, hrequest, l, hl, rfl⟩
    cases hk : t.kind with
    | payout =>
      rw [hk] at hkind
      exact Ledger.exists_payoutSettled hget (of_decide_eq_true hkind)
    | settlement =>
      simp only [hk, Bool.and_eq_true, decide_eq_true_eq] at hkind
      exact Ledger.exists_settleConfirmed hget hkind.1 hkind.2
    | refund =>
      simp only [hk, Bool.and_eq_true, decide_eq_true_eq] at hkind
      exact Ledger.exists_refundConfirmed hget hkind.1 hkind.2
    | treasuryWithdraw => exact ⟨_, rfl⟩

/-- The condition on a poll: when it promotes the row, nothing stands between the
promotion and its record for the request. -/
def SeesFinality (u : Submitter) (head : ℕ) (D : Daemon) (e : ℕ × Tx) (w : PollAnswers)
    (stop : Option ℕ) : Prop :=
  ∀ r ∈ w.receipt.join, e.2.txHash = some r.txHash → r.success →
    asI64 u.requiredConfirmations.toNat ≤ confirmationsAt head r.blockNumber → Reaches stop 3 →
      Reaches stop 4 ∧ verifyOperationEffect r w ∧ accepts D.ledger e.2

instance (u : Submitter) (head : ℕ) (D : Daemon) (e : ℕ × Tx) (w : PollAnswers) (stop : Option ℕ) :
    Decidable (SeesFinality u head D e w stop) :=
  inferInstanceAs (Decidable (∀ r ∈ w.receipt.join, _))

/-- A receipt of the version that was mined is read, if any. -/
theorem pollReceipt_pursues {head : ℕ} {w : PollAnswers} (hrow : D.row id = some t)
    (hstate : t.state = .broadcast ∨ t.state = .included) (ht : Tracked m t) (hsuccess : m.success)
    (hhonest : ∀ r ∈ w.receipt.join, t.txHash = some r.txHash → r.mined = m)
    (hsees : SeesFinality u head D (id, t) w stop) :
    (pollReceipt u D id t w head stop now).Pursues id m := by
  have hD : D.Pursues id m := .inr ⟨t, hrow, ht⟩
  unfold pollReceipt
  rw [ht.txHash]
  dsimp only
  split
  · exact hD
  · split
    · exact hD
    · exact hD
    · rename_i r hreceipt
      split
      · exact hD
      · rename_i hhash
        rw [not_not] at hhash
        have hmem : r ∈ w.receipt.join := by rw [hreceipt]; rfl
        have htracked : t.txHash = some r.txHash := by rw [ht.txHash, hhash]
        obtain rfl : r.mined = m := hhonest r hmem htracked
        have hfinal := hsees r hmem htracked hsuccess
        have hmined : r.success = true := hsuccess
        unfold recordReceipt
        split
        · exact hD
        · rw [hmined]
          cases hrecorded : D.tables.recordReceipt id true r.blockNumber r.blockHash now with
          | error e => exact hD
          | ok recorded =>
            obtain ⟨state, T⟩ := recorded
            obtain ⟨rfl, hget⟩ := Tables.recordReceipt_row hrow hstate ht.block hrecorded
            have htracks : Tracked r.mined (t.mined true (asI64 r.blockNumber) r.blockHash now) :=
              ht.mined now
            dsimp only
            split
            · exact .inr ⟨_, hget, htracks⟩
            · rename_i hreaches
              rw [not_not] at hreaches
              cases hupdated : T.updateConfirmations id (confirmationsAt head r.blockNumber)
                u.requiredConfirmations.toNat now with
              | error e => exact .inr ⟨_, hget, htracks⟩
              | ok updated =>
                obtain ⟨promoted, T'⟩ := updated
                obtain ⟨hpromoted, hget'⟩ := Tables.updateConfirmations_row hget rfl hupdated
                cases promoted with
                | true =>
                  obtain ⟨hfinishes, heffect, haccepts⟩ := hfinal (hpromoted.mp rfl) hreaches
                  dsimp only
                  rw [if_pos ⟨rfl, heffect⟩]
                  obtain ⟨l, hl⟩ := onFinalized_of_accepts { D with
                    tables := T'
                    exchanges := .receiptRead id r.mined.txHash :: D.exchanges } id haccepts
                  unfold finishes
                  rw [if_pos hfinishes, hl]
                  exact .inl List.mem_cons_self
                | false => exact .inr ⟨_, hget', htracks.confirm _ now⟩

/-! ## The ticks -/

/-- A condition on every poll of a tick, in the state it is made in. -/
def EachPoll (u : Submitter) (ok : ℕ → Daemon → ℕ × Tx → PollAnswers → Option ℕ → Prop) (D : Daemon)
    (w : ReceiptTick) : Prop :=
  ∀ head ∈ w.head,
    let poll answers stop D (e : ℕ × Tx) := pollReceipt u D e.1 e.2 (answers e.1) head (stop e.1) w.now
    let included := pollRows u D .broadcast w.broadcast w.stopBroadcast head w.now
    Sweep.Turns (fun D e => ok head D e (w.broadcast e.1) (w.stopBroadcast e.1))
        (poll w.broadcast w.stopBroadcast) D (D.tables.txsInState .broadcast) ∧
      Sweep.Turns (fun D e => ok head D e (w.included e.1) (w.stopIncluded e.1))
        (poll w.included w.stopIncluded) included (included.tables.txsInState .included)

instance (u : Submitter) (ok : ℕ → Daemon → ℕ × Tx → PollAnswers → Option ℕ → Prop)
    [∀ head D e w stop, Decidable (ok head D e w stop)] (D : Daemon) (w : ReceiptTick) :
    Decidable (EachPoll u ok D w) :=
  inferInstanceAs (Decidable (∀ head ∈ w.head, _ ∧ _))

/-- A receipt of the row's version is that of the version that was mined. -/
def Honest (mined : ℕ → Option Mined) (e : ℕ × Tx) (w : PollAnswers) : Prop :=
  ∀ r ∈ w.receipt.join, e.2.txHash = some r.txHash → mined e.1 = some r.mined

instance (mined : ℕ → Option Mined) (e : ℕ × Tx) (w : PollAnswers) : Decidable (Honest mined e w) :=
  inferInstanceAs (Decidable (∀ r ∈ w.receipt.join, _))

variable {mined : ℕ → Option Mined}

theorem pollRows_pursuing {state : RobinhoodTxState} {answers : ℕ → PollAnswers}
    {stop : ℕ → Option ℕ} {head : ℕ} (h : D.Pursuing mined)
    (hstate : state = .broadcast ∨ state = .included)
    (hhonest : Sweep.Turns (fun _ e => Honest mined e (answers e.1))
      (fun D e => pollReceipt u D e.1 e.2 (answers e.1) head (stop e.1) now) D
      (D.tables.txsInState state))
    (hsees : Sweep.Turns (fun D e => SeesFinality u head D e (answers e.1) (stop e.1))
      (fun D e => pollReceipt u D e.1 e.2 (answers e.1) head (stop e.1) now) D
      (D.tables.txsInState state)) :
    (pollRows u D state answers stop head now).Pursuing mined := by
  unfold pollRows
  refine Sweep.invariant_of_turns pollRows_local current_txsInState (fun D e he hD hok hread => ?_)
    (hhonest.and hsees) h
  refine hD.moves pollReceipt_moves fun m t hmined hsuccess hget ht => ?_
  obtain rfl : e.2 = t := Option.some.inj (hread.symm.trans hget)
  refine pollReceipt_pursues hget ?_ ht hsuccess (fun r hr hhash => ?_) hok.2
  · rwa [(Tables.mem_txsInState.mp he).2]
  · exact Option.some.inj ((hok.1 r hr hhash).symm.trans hmined)

theorem tickReceipts_pursuing {w : ReceiptTick} (h : D.Pursuing mined)
    (hhonest : EachPoll u (fun _ _ e w _ => Honest mined e w) D w)
    (hsees : EachPoll u (SeesFinality u) D w) : (tickReceipts u D w).Pursuing mined := by
  unfold tickReceipts
  cases hhead : w.head with
  | none => exact h
  | some head =>
    obtain ⟨hhonest, hhonest'⟩ := hhonest head hhead
    obtain ⟨hsees, hsees'⟩ := hsees head hhead
    exact pollRows_pursuing (pollRows_pursuing h (.inl rfl) hhonest hsees) (.inr rfl) hhonest' hsees'

/-- The condition on a broadcast row in a broadcast tick: its bytes are not given
up once they were executed. -/
def KeepsVersion (s : Settler) (u : Submitter) (mined : ℕ → Option Mined) (w : BroadcastTick)
    (e : ℕ × Tx) : Prop :=
  ∀ m ∈ mined e.1, m.success → ¬ s.leavesVersion u e.2 (w.answers e.1) w.now ∨ w.stop e.1 = some 0

instance (s : Settler) (u : Submitter) (mined : ℕ → Option Mined) (w : BroadcastTick) (e : ℕ × Tx) :
    Decidable (s.KeepsVersion u mined w e) := inferInstanceAs (Decidable (∀ m ∈ mined e.1, _))

theorem tickBroadcast_pursuing {w : BroadcastTick} (h : D.Pursuing mined)
    (hkeeps : ∀ e ∈ D.tables.txsInState .broadcast, s.KeepsVersion u mined w e) :
    (s.tickBroadcast u D w).Pursuing mined := by
  unfold tickBroadcast
  obtain ⟨T, heq, hrows⟩ := reconcileNonce_eq (s := s) (u := u) (D := D) (w := w)
  have hpursuing : (s.reconcileNonce u D w).Pursuing mined := by
    rw [heq]
    refine ⟨fun id m hmined hsuccess => ?_, fun id t hget => h.unread id t ((hrows id).symm.trans hget)⟩
    rcases h.pursues id m hmined hsuccess with hdone | ⟨t, hget, ht⟩
    · exact .inl hdone
    · exact .inr ⟨t, (hrows id).trans hget, ht⟩
  replace hrows (k : ℕ) : (s.reconcileNonce u D w).row k = D.row k := by
    rw [heq]
    exact hrows k
  generalize s.reconcileNonce u D w = D₀ at hrows hpursuing ⊢
  refine Sweep.invariant rebroadcastOrReplace_local current_inFlight (fun D e he hD hread => ?_) ?_
  · refine hD.moves rebroadcastOrReplace_moves fun m t hmined hsuccess hget ht => ?_
    obtain ⟨hget₀, hstate⟩ := Tables.mem_txsInState.mp he
    refine (rebroadcastOrReplace_rebroadcasts ?_).pursues (.inr ⟨t, hget, ht⟩)
    exact hkeeps e (Tables.mem_txsInState.mpr ⟨(hrows e.1).symm.trans hget₀, hstate⟩) m hmined hsuccess
  · -- what is signed in this tick was not mined before
    refine Sweep.invariant signAndSend_local current_txsInState (fun D e he hD hread => ?_) hpursuing
    refine hD.moves signAndSend_moves fun m t hmined hsuccess hget ht => ?_
    obtain rfl : e.2 = t := Option.some.inj (hread.symm.trans hget)
    have hstate := ht.state
    rw [(Tables.mem_txsInState.mp he).2] at hstate
    simp at hstate

end Settler

/-! ## The chain next to the daemon -/

/-- The daemon, the versions it has signed of each operation, the versions that
were mined, and the head of the chain. -/
structure Site extends Daemon where
  versions : List (ℕ × ℕ)
  mined : ℕ → Option Mined
  head : ℕ

def Site.empty : Site := ⟨.empty, [], fun _ => none, 0⟩

/-- What happens on either side. A version is mined in the block of the head, and
no other version of its operation is after that. -/
inductive SiteOp
  | daemon (op : DaemonOp)
  | mine (id : ℕ) (m : Mined)
  | newHead (head : ℕ)

/-- The versions the rows hold. -/
def Tables.versions (T : Tables) : List (ℕ × ℕ) :=
  T.transactions.rows.entries.filterMap fun e => e.2.txHash.map fun hash => (e.1, hash)

namespace Site

/-- The operation was executed, to the required depth. -/
def Executed (u : Submitter) (N : Site) (id : ℕ) : Prop :=
  ∃ m ∈ N.mined id, m.success ∧
    asI64 u.requiredConfirmations.toNat ≤ Settler.confirmationsAt N.head m.blockNumber

instance (u : Submitter) (N : Site) (id : ℕ) : Decidable (N.Executed u id) :=
  inferInstanceAs (Decidable (∃ m ∈ N.mined id, _))

end Site

namespace Settler
open Daemon

/-- A node may lag, and it may not answer. What it answers about a version is so. -/
def Answered (u : Submitter) (N : Site) : DaemonOp → Prop
  | .tickReceipts w => (∀ head ∈ w.head, head ≤ N.head) ∧
      EachPoll u (fun _ _ e w _ => Honest N.mined e w) N.toDaemon w
  | .call _ | .ledger _ | .tickBroadcast _ => True

instance (u : Submitter) (N : Site) (op : DaemonOp) : Decidable (Answered u N op) :=
  match op with
  | .tickReceipts _ => inferInstanceAs (Decidable (_ ∧ _))
  | .call _ => inferInstanceAs (Decidable True)
  | .ledger _ => inferInstanceAs (Decidable True)
  | .tickBroadcast _ => inferInstanceAs (Decidable True)

def siteStep (s : Settler) (u : Submitter) (N : Site) : SiteOp → Option Site
  | .daemon op => if Answered u N op then (s.daemonStep u N.toDaemon op).map fun D =>
      { N with toDaemon := D, versions := D.tables.versions ++ N.versions } else none
  | .mine id m =>
    if (id, m.txHash) ∈ N.versions ∧ N.mined id = none ∧ m.blockNumber = N.head then
      some { N with mined := Function.update N.mined id (some m) }
    else none
  | .newHead head => if N.head ≤ head then some { N with head := head } else none

abbrev siteRun (s : Settler) (u : Submitter) (N : Site) (ops : List SiteOp) : Site :=
  Run.final (s.siteStep u) N ops

abbrev siteHistory (s : Settler) (u : Submitter) (ops : List SiteOp) : List (Site × SiteOp) :=
  Run.history (s.siteStep u) .empty ops

/-- The row holds the version and waits for its receipt. -/
def awaits (t : Tx) (m : Mined) : Bool :=
  t.txHash = some m.txHash && decide (t.state = .signed ∨ t.state = .broadcast)

/-- The condition on an event. A version that is executed is the one its row
holds, it is not given up afterwards, and the poll that promotes the row gets to
the end. -/
def KeepsFinality (s : Settler) (u : Submitter) (N : Site) : SiteOp → Prop
  | .daemon (.tickBroadcast w) =>
    ∀ e ∈ N.tables.txsInState .broadcast, s.KeepsVersion u N.mined w e
  | .daemon (.tickReceipts w) => EachPoll u (SeesFinality u) N.toDaemon w
  | .mine id m => m.success → id ∈ N.completed ∨ (N.row id).any fun t => awaits t m
  | .daemon (.call _) | .daemon (.ledger _) | .newHead _ => True

instance (s : Settler) (u : Submitter) (N : Site) (op : SiteOp) :
    Decidable (s.KeepsFinality u N op) :=
  match op with
  | .daemon (.tickBroadcast _) => inferInstanceAs (Decidable (∀ e ∈ _, _))
  | .daemon (.tickReceipts _) => inferInstanceAs (Decidable (EachPoll _ _ _ _))
  | .mine _ _ => inferInstanceAs (Decidable (_ → _))
  | .daemon (.call _) => inferInstanceAs (Decidable True)
  | .daemon (.ledger _) => inferInstanceAs (Decidable True)
  | .newHead _ => inferInstanceAs (Decidable True)

variable {s : Settler} {u : Submitter} {D D' : Daemon} {N N' : Site} {op : SiteOp}
  {mined : ℕ → Option Mined}

theorem daemonStep_pursuing {op : DaemonOp} (h : D.Pursuing mined)
    (hbroadcast : ∀ w, op = .tickBroadcast w →
      ∀ e ∈ D.tables.txsInState .broadcast, s.KeepsVersion u mined w e)
    (hreceipts : ∀ w, op = .tickReceipts w →
      EachPoll u (fun _ _ e w _ => Honest mined e w) D w ∧ EachPoll u (SeesFinality u) D w)
    (hstep : s.daemonStep u D op = some D') : D'.Pursuing mined := by
  cases op with
  | call op =>
    rw [daemonStep] at hstep
    split_ifs at hstep with hticks
    obtain ⟨T, hcall, rfl⟩ := Option.map_eq_some_iff.mp hstep
    have heffect := Tables.effect_of_step hcall
    refine ⟨fun id m hmined hsuccess => ?_, fun id t' hget' => ?_⟩
    · rcases h.pursues id m hmined hsuccess with hdone | ⟨t, hget, ht⟩
      · exact .inl hdone
      · rcases heffect.cases_row hget with hsame | ⟨t', -, hedge, -⟩
        · exact .inr ⟨t, hsame, ht⟩
        · cases hedge with
          | authorized hlength hdistinct hnone hstate =>
            have hactive := ht.state
            rw [hstate] at hactive
            simp at hactive
          | _ => exact absurd rfl hticks
    · rcases heffect.origin hget' with hsame | ⟨t, hget, hedge⟩ | ⟨new, now, -, rfl, -⟩
      · exact h.unread id t' hsame
      · exact (h.unread id t hget).edge hedge
      · exact fun _ => rfl
  | ledger op =>
    obtain ⟨l, -, rfl⟩ := Option.map_eq_some_iff.mp hstep
    exact ⟨h.pursues, h.unread⟩
  | tickBroadcast w =>
    obtain rfl := Option.some.inj hstep
    exact tickBroadcast_pursuing h (hbroadcast w rfl)
  | tickReceipts w =>
    obtain rfl := Option.some.inj hstep
    obtain ⟨hhonest, hsees⟩ := hreceipts w rfl
    exact tickReceipts_pursuing h hhonest hsees

theorem empty_pursuing : Site.empty.Pursuing Site.empty.mined := by
  refine ⟨fun id m hmined => ?_, fun id t hget => ?_⟩
  · cases hmined
  · cases hget

theorem siteStep_pursuing (h : N.Pursuing N.mined) (hkeeps : s.KeepsFinality u N op)
    (hstep : s.siteStep u N op = some N') : N'.Pursuing N'.mined := by
  cases op with
  | daemon op =>
    rw [siteStep] at hstep
    split_ifs at hstep with hanswered
    obtain ⟨D, hdaemon, rfl⟩ := Option.map_eq_some_iff.mp hstep
    refine daemonStep_pursuing h ?_ ?_ hdaemon
    · rintro w rfl
      exact hkeeps
    · rintro w rfl
      exact ⟨hanswered.2, hkeeps⟩
  | mine id m =>
    rw [siteStep] at hstep
    split_ifs at hstep with hmines
    obtain rfl := Option.some.inj hstep
    refine ⟨fun k m' hmined hsuccess => ?_, h.unread⟩
    dsimp only at hmined
    by_cases hk : k = id
    · subst hk
      rw [Function.update_self] at hmined
      obtain rfl := Option.some.inj hmined
      refine (hkeeps hsuccess).imp_right fun hholds => ?_
      obtain ⟨t, hget, hawaits⟩ := (Option.any_eq_true _ _).mp hholds
      simp only [awaits, Bool.and_eq_true, decide_eq_true_eq] at hawaits
      have hunread := h.unread k t hget (.inr (.inr hawaits.2))
      refine ⟨t, hget, hawaits.1, hawaits.2.imp_right .inl, fun b hb => ?_⟩
      rw [hunread] at hb
      cases hb
    · rw [Function.update_of_ne hk] at hmined
      exact h.pursues k m' hmined hsuccess
  | newHead head =>
    rw [siteStep] at hstep
    split_ifs at hstep
    obtain rfl := Option.some.inj hstep
    exact ⟨h.pursues, h.unread⟩

/-! ### A sample site -/

/-- A receipt of the bridge, and the contract's replay guard if it is read. -/
def sampleReceipt (txHash : ℕ) (executed : Option Bool) : PollAnswers where
  receipt := some (some ⟨txHash, true, 10, 77, true⟩)
  executed := executed

def sampleMined (txHash : ℕ) : Mined := ⟨txHash, true, 10, 77⟩

/-- A receipt tick at block 12 that reads the receipt of one operation. -/
def sampleReceipts (now : ℤ) (id : ℕ) (answers : PollAnswers) : DaemonOp :=
  .tickReceipts {
    now := now
    head := some 12
    broadcast := fun k => if k = id then answers else ⟨some none, none⟩
    included := fun _ => ⟨some none, none⟩
    stopBroadcast := fun _ => none
    stopIncluded := fun _ => none }

/-- A request to Robinhood whose deposit is final, and its payout. -/
def sampleSite : List SiteOp :=
  [DaemonOp.ledger (.configureReserve .robinhoodReserve 1000000 0),
    .ledger (.createRequest .glcToRhn Ledger.sampleAmounts (List.replicate 20 1) none none 3600 10),
    .ledger (.recordGlcDepositObserved 1
      { txid := 40, vout := 0, amount := 1000, blockHeight := 8, blockHash := 8,
        sourceWallets := [] }
      (fun _ _ _ _ _ => .error .conversion) 20),
    .ledger (.updateGlcConfirmations 1 6),
    .ledger (.markGlcSourceFinalized 1 90),
    .call (.requestCreated 1),
    .call (.beginTx { Tables.samplePayout 1 with authDigest := 2000 } 100),
    .call (.recordAuthorization 1 [(1, 11), (2, 12)] 101)].map .daemon

/-- The payout is broadcast and mined. -/
def minedRun : List SiteOp :=
  sampleSite ++ [.daemon (sampleBroadcast 200 fun _ => none), .newHead 10,
    .mine 1 (sampleMined 1001), .newHead 12]

/-- Its receipt is read, and so is the replay guard. -/
def carriedRun : List SiteOp :=
  minedRun ++ [.daemon (sampleReceipts 300 1 (sampleReceipt 1001 (some true)))]

/-! ### Finality reaches the request -/

/-- In a run whose events keep the mined version in hand and get to the end of
each promotion, no operation was executed and then left: what is finalized or
parked was carried over to its request. -/
theorem finality_carried (s : Settler) (u : Submitter) (ops : List SiteOp)
    (hkeeps : ∀ e ∈ s.siteHistory u ops, s.KeepsFinality u e.1 e.2) :
    ∀ id t, (s.siteRun u .empty ops).row id = some t → (s.siteRun u .empty ops).Executed u id →
      t.state = .finalized ∨ t.state = .manualReview → id ∈ (s.siteRun u .empty ops).completed := by
  intro id t hget hexecuted hleft
  let Kept (N : Site) : Prop := N.Pursuing N.mined
  have hpursuing : Kept (s.siteRun u .empty ops) :=
    Run.invariant_of_history (fun _ _ _ h hkeeps hstep => siteStep_pursuing h hkeeps hstep)
      empty_pursuing ops hkeeps
  obtain ⟨m, hmined, hsuccess, -⟩ := hexecuted
  rcases hpursuing.pursues id m hmined hsuccess with hdone | ⟨t', hget', ht'⟩
  · exact hdone
  · obtain rfl := Option.some.inj (hget'.symm.trans hget)
    have hstate := ht'.state
    rcases hleft with hleft | hleft <;> rw [hleft] at hstate <;> simp at hstate

/-- A payout that was mined, read and promoted is carried over to its request. -/
theorem finality_carried_sample :
    1 ∈ (sample.siteRun sampleSubmitter .empty carriedRun).completed := by
  have hrow : ((sample.siteRun sampleSubmitter .empty carriedRun).row 1).map Tx.state =
      some .finalized := by decide +kernel
  obtain ⟨t, hget, hstate⟩ := Option.map_eq_some_iff.mp hrow
  have hexecuted : (sample.siteRun sampleSubmitter .empty carriedRun).Executed sampleSubmitter 1 := by
    decide +kernel
  exact finality_carried sample sampleSubmitter carriedRun (by decide +kernel) 1 t hget hexecuted
    (.inl hstate)

/-! ### Finality that is lost -/

/-- The replay guard is not read when the payout is promoted. -/
def unreadRun : List SiteOp := minedRun ++ [.daemon (sampleReceipts 300 1 (sampleReceipt 1001 none))]

/-- The payout is replaced, and then its original is mined. The node has no receipt
of the replacement. -/
def replacedRun : List SiteOp :=
  sampleSite ++ [.daemon (sampleBroadcast 200 fun _ => none),
    .daemon (sampleBroadcast 300 fun _ => none), .newHead 10, .mine 1 (sampleMined 1001),
    .newHead 12, .daemon (sampleReceipts 350 1 ⟨some none, none⟩),
    .daemon (sampleBroadcast 2000 fun _ => none)]

/-- The payout is executed to the required depth. Promoted while the replay
guard could not be read, it is finalized, its request never hears of it, and it
is not looked at again, whatever happens. Replaced before its original was mined,
it is parked. -/
theorem finality_lost :
    (∃ t, (sample.siteRun sampleSubmitter .empty unreadRun).row 1 = some t ∧ t.state = .finalized ∧
      (sample.siteRun sampleSubmitter .empty unreadRun).Executed sampleSubmitter 1 ∧
      1 ∉ (sample.siteRun sampleSubmitter .empty unreadRun).completed ∧
      ((sample.siteRun sampleSubmitter .empty unreadRun).ledger.requests.get? 1).map Request.state =
        some .sourceFinalized ∧
      ∀ later : List DaemonOp, Ignored 1 t (sample.daemonRun sampleSubmitter
        { (sample.siteRun sampleSubmitter .empty unreadRun).toDaemon with exchanges := [] } later)) ∧
    ∃ t, (sample.siteRun sampleSubmitter .empty replacedRun).row 1 = some t ∧
      t.state = .manualReview ∧
      (sample.siteRun sampleSubmitter .empty replacedRun).Executed sampleSubmitter 1 ∧
      1 ∉ (sample.siteRun sampleSubmitter .empty replacedRun).completed := by
  constructor
  · have hrow : ((sample.siteRun sampleSubmitter .empty unreadRun).row 1).map Tx.state =
        some .finalized := by decide +kernel
    obtain ⟨t, hget, hstate⟩ := Option.map_eq_some_iff.mp hrow
    refine ⟨t, hget, hstate, by decide, by decide, by decide, fun later => ?_⟩
    refine Run.invariant (fun _ _ _ h hstep => idle_ignored (by rw [hstate]; rfl) h hstep) ?_ later
    exact ⟨hget, fun x hx => by cases hx⟩
  · have hrow : ((sample.siteRun sampleSubmitter .empty replacedRun).row 1).map Tx.state =
        some .manualReview := by decide
    obtain ⟨t, hget, hstate⟩ := Option.map_eq_some_iff.mp hrow
    exact ⟨t, hget, hstate, by decide, by decide⟩

end Settler

end Service.Robinhood
