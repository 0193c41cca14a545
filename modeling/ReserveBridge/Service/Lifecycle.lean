-- SUMMARY: The one-way states of a request: what is settled, refunded or closed stays so, and a refund moves forward, or back to manual review by the two operations made for it.
import ReserveBridge.Service.Ledger.Effects

/-!
# One-way states

A request that is settled, refunded or closed is over. One on the way to its
refund goes on to it, with two ways back by design: the operator returns a
refund that was never sent, and the daemon parks one whose transaction
reverted.
-/

namespace Service
open Guard

namespace RequestState

/-- Over, or on the way to a refund. -/
def isOneWay (s : RequestState) : Bool := s.isTerminal || s.isRefundLifecycle

/-- No move, or one along the path of a refund. -/
def Forward (s s' : RequestState) : Prop :=
  s' = s ∨ (s = .refundPending ∧ (s' = .refundBroadcast ∨ s' = .refunded)) ∨
    (s = .refundBroadcast ∧ s' = .refunded)

instance (s s' : RequestState) : Decidable (s.Forward s') :=
  inferInstanceAs (Decidable (_ ∨ _ ∨ _))

variable {s s' s'' : RequestState}

theorem Forward.trans (h : s.Forward s') (h' : s'.Forward s'') : s.Forward s'' := by
  obtain rfl | ⟨rfl, rfl | rfl⟩ | ⟨rfl, rfl⟩ := h
  · exact h'
  all_goals obtain rfl | ⟨h, -⟩ | ⟨h, rfl⟩ := h' <;> simp_all [Forward]

theorem Forward.isOneWay (h : s.Forward s') (hs : s.isOneWay = true) : s'.isOneWay = true := by
  obtain rfl | ⟨rfl, rfl | rfl⟩ | ⟨rfl, rfl⟩ := h
  · exact hs
  all_goals rfl

/-- What is over stays as it is. -/
theorem Forward.eq_of_isTerminal (h : s.Forward s') (hs : s.isTerminal = true) : s' = s := by
  obtain h | ⟨rfl, -⟩ | ⟨rfl, -⟩ := h
  · exact h
  all_goals cases hs

end RequestState

/-- The operations that take a request back from the path of its refund. -/
def Op.Returns (id : ℕ) : Op → Prop
  | .returnRefundToManualReview k _ _ => k = id
  | .markRobinhoodRequestManualReview k _ => k = id
  | _ => False

instance (id : ℕ) (op : Op) : Decidable (op.Returns id) := by
  cases op <;> unfold Op.Returns <;> infer_instance

/-- No operation on a request that is done with: a payout is confirmed while it
is owed, and what is closed is not parked. -/
def Request.Orderly (r : Request) (id : ℕ) : Op → Prop
  | .markRobinhoodRequestManualReview k _ => k = id → r.state ≠ .closed
  | .markRobinhoodPayoutSettled k => k = id →
    r.state.isOwed = true ∨ r.state = .settled ∨
      (r.state = .destinationConfirmed ∧ ¬ r.direction.settlesOnPayout)
  | .updateGoldcoinPayoutConfirmations k c depth => k = id → depth ≤ c →
    ∀ p ∈ r.goldcoinPayout, p.state = .broadcast → r.state.isOwed = true
  | _ => True

/-- A Goldcoin refund under way and its request are at the same point, or the
request was parked meanwhile. -/
def Request.RefundStaged (r : Request) : Prop :=
  ∀ f ∈ r.goldcoinRefund, f.state ≠ .refunded →
    r.state = .manualReview ∨ (f.state = .broadcast ∧ r.state = .refundBroadcast) ∨
      (f.state ≠ .broadcast ∧ r.state = .refundPending)

namespace Transition

variable {op : Op} {id : ℕ} {r r' : Request} {δ : ℤ × ℤ}

theorem refundStaged (h : Transition op id r r' δ) (hwf : r.Wf) (hstaged : r.RefundStaged)
    (hok : r.Orderly id op) : r'.RefundStaged := by
  intro f' hf' hne'
  have hparked : ∀ f ∈ r.goldcoinRefund, f.state ≠ .refunded → r.state.isParked = true := by
    intro f hf hne
    obtain h | ⟨-, h⟩ | ⟨-, h⟩ := hstaged f hf hne <;> rw [h] <;> rfl
  obtain ⟨-, hs, hbuilt, -⟩ | ⟨f, hf, hne, hcase⟩ := h.openRefund hwf hparked hf' hne'
  · exact .inr (.inr ⟨by simp [hbuilt], hs⟩)
  · have hstage := hstaged f hf hne
    obtain ⟨-, ⟨hs, hstep⟩ | ⟨-, hbroadcast, hs⟩⟩ | ⟨-, hs, -⟩ | ⟨rfl, hsettled, hconfirmed⟩ := hcase
    · rw [hs]
      obtain hsame | ⟨hbuilt, hsigned⟩ := hstep
      · rwa [hsame]
      · simpa [hbuilt, hsigned] using hstage
    · exact .inr (.inl ⟨hbroadcast, hs⟩)
    · exact .inl hs
    · -- nothing is owed on a parked row
      have hs := hparked f hf hne
      obtain howed | hsettled' | ⟨hconfirmed', -⟩ := hok rfl
      · revert hs howed
        cases r.state <;> simp [RequestState.isParked, RequestState.isOwed]
      · exact absurd hsettled' hsettled
      · exact absurd hconfirmed' hconfirmed

/-- A one-way state is left forward, or by a return to manual review. -/
theorem forward (h : Transition op id r r' δ) (hstaged : r.RefundStaged) (hok : r.Orderly id op)
    (hs : r.state.isOneWay = true) :
    r.state.Forward r'.state ∨
      (op.Returns id ∧ r'.state = .manualReview ∧ r.state.isTerminal = false) := by
  -- transitions out of any other state do not apply
  have other : ∀ s : RequestState, s.isOneWay = false → r.state = s → False := by
    rintro s hother rfl
    rw [hother] at hs
    cases hs
  have owed : r.state.isOwed = true → False := by
    intro howed
    revert hs howed
    cases r.state <;> simp [RequestState.isOneWay, RequestState.isTerminal,
      RequestState.isRefundLifecycle, RequestState.isOwed]
  cases h with
  | expired h => exact (other _ rfl h).elim
  | cancelled h => exact (h.elim (other _ rfl) (other _ rfl)).elim
  | lateDeposit h => exact (other _ rfl h).elim
  | observed _ _ h₀ _ _ =>
    cases h₀ with
    | awaiting h => exact (other _ rfl h).elim
    | readmitted h => exact (other _ rfl h).elim
  | finalized h => exact (other _ rfl h).elim
  | spentBeforeFinalized h => exact (other _ rfl h).elim
  | reorged h => exact (h.elim (other _ rfl) (other _ rfl)).elim
  | parkedForBounds h => exact (other _ rfl h).elim
  | parkedForContract h => exact (other _ rfl h).elim
  | resumed h => exact (other _ rfl h).elim
  | resumedBounds h => exact (other _ rfl h).elim
  | closed _ h => exact (other _ rfl h).elim
  | solanaRefundBegun h => exact (other _ rfl h).elim
  | solanaRefundBroadcast hf h =>
    left
    split_ifs with hpending
    · exact .inr (.inl ⟨hpending, .inl rfl⟩)
    · exact .inl rfl
  | solanaRefundConfirmed hf h => exact .inl (.inr (.inr ⟨h, rfl⟩))
  | refundReturned hop h => exact .inr ⟨hop ▸ rfl, rfl, by rw [h]; rfl⟩
  | goldcoinRefundBegun h => exact (other _ rfl h).elim
  | goldcoinRefundBroadcast _ hf h =>
    obtain hs | ⟨hb, -⟩ | ⟨-, hs⟩ := hstaged _ hf (by simp [h])
    · exact (other _ rfl hs).elim
    · simp [h] at hb
    · exact .inl (.inr (.inl ⟨hs, .inl rfl⟩))
  | goldcoinRefundConfirmed _ hf h =>
    obtain hs | ⟨-, hs⟩ | ⟨hb, -⟩ := hstaged _ hf (by simp [h])
    · exact (other _ rfl hs).elim
    · exact .inl (.inr (.inr ⟨hs, rfl⟩))
    · exact absurd h hb
  | robinhoodRefundPending h => exact (other _ rfl h).elim
  | robinhoodRefundConfirmed _ h =>
    obtain h | h := h
    · exact .inl (.inr (.inl ⟨h, .inr rfl⟩))
    · exact .inl (.inr (.inr ⟨h, rfl⟩))
  | robinhoodParked hop h =>
    subst hop
    refine .inr ⟨rfl, rfl, ?_⟩
    have hclosed := hok rfl
    revert h hclosed
    cases r.state <;> simp [RequestState.isTerminal]
  | releaseSubmitted h => exact (other _ rfl h).elim
  | releaseConfirmed h => exact (other _ rfl h).elim
  | payoutSigned _ _ h => exact (other _ rfl h).elim
  | payoutBroadcast _ _ h => exact (other _ rfl h).elim
  | payoutConfirmed hop hdepth hp hp' =>
    subst hop
    exact (owed (hok rfl hdepth _ hp hp')).elim
  | completionConfirmed h => exact (other _ rfl h).elim
  | robinhoodPayoutSettled hop _ h =>
    subst hop
    obtain howed | hdone := hok rfl
    · exact (owed howed).elim
    · exact absurd hdone h
  | robinhoodPayoutCompleted h => exact (other _ rfl h).elim
  | robinhoodSettled h => exact (other _ rfl h).elim
  | robinhoodSettledGoldcoin h => exact (other _ rfl h).elim
  | confirmations | reviewed | goldcoinRefundSigned | releaseAttested | payoutBuilt
  | payoutConfirmations | completionSubmitted | robinhoodTx => exact .inl (.inl rfl)

end Transition

theorem Inserted.refundStaged {r : Request} {δ : ℤ × ℤ} (h : Inserted r δ) : r.RefundStaged := by
  have fresh : NewRow r := by cases h <;> assumption
  intro f hf
  rw [fresh.goldcoinRefund] at hf
  cases hf

/-! ## Along a run -/

theorem Request.orderly_of_isCompound {r : Request} {id : ℕ} {op : Op}
    (h : op.isCompound = true) : r.Orderly id op := by
  cases op <;> trivial

theorem Op.not_returns_of_isCompound {id : ℕ} {op : Op} (h : op.isCompound = true) :
    ¬ op.Returns id := by
  cases op <;> first | exact not_false | cases h

/-- An operation that is orderly on the row of a request. -/
def Ledger.Orderly (l : Ledger) (id : ℕ) (op : Op) : Prop :=
  ∀ r, l.requests.get? id = some r → r.Orderly id op

/-- The invariants of a row in this file. -/
structure Ledger.Staged (l : Ledger) (id : ℕ) : Prop where
  wf : l.Wf
  refund : ∀ r, l.requests.get? id = some r → r.RefundStaged

namespace Effect

variable {op : Op} {l l' : Ledger} {id : ℕ} {r : Request}

theorem staged (h : Effect op l l') (hl : l.Staged id) (hok : l.Orderly id op) :
    l'.Staged id := by
  have hwf : l'.Wf :=
    h.forall_rows (P := fun _ r => r.Wf) (fun _ _ _ hi => hi.wf) (fun _ _ _ _ ht => ht.wf) hl.wf
  refine ⟨hwf, ?_⟩
  clear hwf
  induction h with
  | idle requests => simpa [requests] using hl.refund
  | configured requests => simpa [requests] using hl.refund
  | inserted h row requests =>
    intro r' hget
    rw [requests, Store.get?_push] at hget
    split_ifs at hget with hk
    · exact Option.some.inj hget ▸ h.refundStaged
    · exact hl.refund r' hget
  | @moved l l' k r r' δ found h requests =>
    intro r₁ hget
    rw [requests] at hget
    replace hget := (Ledger.get?_setRequest found r' id).symm.trans hget
    split_ifs at hget with hk
    · subst hk
      exact Option.some.inj hget ▸ h.refundStaged (hl.wf id r found) (hl.refund r found)
        (hok r found)
    · exact hl.refund r₁ hget
  | seq hop h₁ _ ih₁ ih =>
    have hwf := h₁.forall_rows (P := fun _ r => r.Wf) (fun _ _ _ hi => hi.wf)
      (fun _ _ _ _ ht => ht.wf) hl.wf
    exact ih ⟨hwf, ih₁ hl hok⟩ fun _ _ => Request.orderly_of_isCompound hop

theorem forward (h : Effect op l l') (hl : l.Staged id) (hok : l.Orderly id op)
    (hget : l.requests.get? id = some r) (hs : r.state.isOneWay = true) :
    ∃ r', l'.requests.get? id = some r' ∧ (r.state.Forward r'.state ∨
      (op.Returns id ∧ r'.state = .manualReview ∧ r.state.isTerminal = false)) := by
  induction h generalizing r with
  | idle requests => exact ⟨r, requests ▸ hget, .inl (.inl rfl)⟩
  | configured requests => exact ⟨r, requests ▸ hget, .inl (.inl rfl)⟩
  | inserted h row requests =>
    exact ⟨r, requests ▸ Store.get?_push_of_some hget, .inl (.inl rfl)⟩
  | @moved l l' k r₁ r' δ found h requests =>
    have rows := Ledger.get?_setRequest found r' id
    by_cases hk : id = k
    · subst hk
      obtain rfl := Option.some.inj (hget.symm.trans found)
      rw [if_pos rfl] at rows
      exact ⟨r', requests ▸ rows, h.forward (hl.refund r found) (hok r found) hs⟩
    · rw [if_neg hk, hget] at rows
      exact ⟨r, requests ▸ rows, .inl (.inl rfl)⟩
  | seq hop h₁ _ ih₁ ih =>
    obtain ⟨r₁, hget₁, hforward₁ | ⟨hreturns, -⟩⟩ := ih₁ hl hok hget hs
    · obtain ⟨r', hget', hforward | ⟨hreturns, -⟩⟩ :=
        ih (h₁.staged hl hok) (fun _ _ => Request.orderly_of_isCompound hop) hget₁
          (hforward₁.isOneWay hs)
      · exact ⟨r', hget', .inl (hforward₁.trans hforward)⟩
      · exact absurd hreturns (Op.not_returns_of_isCompound hop)
    · exact absurd hreturns (Op.not_returns_of_isCompound hop)

end Effect

namespace Ledger

variable {op : Op} {l l' : Ledger} {ops ops₁ ops₂ : List Op} {id : ℕ} {r r' : Request}

theorem Staged.step (hl : l.Staged id) (hok : l.Orderly id op) (h : l.step op = some l') :
    l'.Staged id :=
  (effect_of_step hl.wf h).staged hl hok

theorem staged_empty : empty.Staged id := by
  refine ⟨wf_empty, fun r h => ?_⟩
  have hnone : empty.requests.get? id = none := rfl
  rw [hnone] at h
  cases h

/-- Over a run, a one-way state is left forward only, unless it is one of a
refund that is returned. -/
theorem forward_of_run (hl : l.Staged id)
    (hok : ∀ e ∈ Run.history step l ops, e.1.Orderly id e.2)
    (hget : l.requests.get? id = some r) (hs : r.state.isOneWay = true)
    (hstay : r.state.isTerminal = true ∨ ∀ e ∈ Run.history step l ops, ¬ e.2.Returns id) :
    ∃ r', (Run.final step l ops).requests.get? id = some r' ∧ r.state.Forward r'.state := by
  induction ops generalizing l r with
  | nil => exact ⟨r, hget, .inl rfl⟩
  | cons op ops ih =>
    cases hstep : l.step op with
    | none =>
      rw [Run.history_cons_of_none hstep] at hok hstay
      rw [Run.final_cons, Run.advance_of_none hstep]
      exact ih hl hok hget hs hstay
    | some l' =>
      rw [Run.history_cons_of_some hstep] at hok hstay
      rw [Run.final_cons, Run.advance_of_some hstep]
      have hop := hok _ List.mem_cons_self
      have hrest : ∀ e ∈ Run.history step l' ops, e.1.Orderly id e.2 :=
        fun e he => hok e (List.mem_cons_of_mem _ he)
      -- this step is forward, and the next state is one-way again
      obtain ⟨r₁, hget₁, hforward | ⟨hreturns, -, hopen⟩⟩ :=
        (effect_of_step hl.wf hstep).forward hl hop hget hs
      · have hstay₁ : r₁.state.isTerminal = true ∨
            ∀ e ∈ Run.history step l' ops, ¬ e.2.Returns id := by
          obtain hterminal | hstay := hstay
          · exact .inl (by rwa [hforward.eq_of_isTerminal hterminal])
          · exact .inr fun e he => hstay e (List.mem_cons_of_mem _ he)
        obtain ⟨r', hget', hforward'⟩ :=
          ih (hl.step hop hstep) hrest hget₁ (hforward.isOneWay hs) hstay₁
        exact ⟨r', hget', hforward.trans hforward'⟩
      · obtain hterminal | hstay := hstay
        · rw [hopen] at hterminal
          cases hterminal
        · exact absurd hreturns (hstay _ List.mem_cons_self)

/-- In every run that is orderly on a request, it keeps its state when it is settled,
refunded or closed, and moves forward only on the way to its refund, until it is
returned to manual review, by one of the two operations that do. -/
theorem request_one_way
    (hok : ∀ e ∈ Run.history step empty (ops₁ ++ ops₂), e.1.Orderly id e.2)
    (hget : (after ops₁).requests.get? id = some r)
    (hget' : (after (ops₁ ++ ops₂)).requests.get? id = some r') :
    (r.state.isTerminal = true → r'.state = r.state) ∧
    (r.state.isRefundLifecycle = true →
      ((∀ e ∈ Run.history step (after ops₁) ops₂, ¬ e.2.Returns id) → r.state.Forward r'.state) ∧
      ∀ op, ops₂ = [op] →
        r.state.Forward r'.state ∨ (op.Returns id ∧ r'.state = .manualReview)) := by
  rw [Run.history_append] at hok
  have hl : (after ops₁).Staged id := Run.invariant_of_history
    (fun _ _ _ hl hok h => Staged.step hl hok h) staged_empty ops₁
    fun e he => hok e (List.mem_append_left _ he)
  have hok₂ : ∀ e ∈ Run.history step (after ops₁) ops₂, e.1.Orderly id e.2 :=
    fun e he => hok e (List.mem_append_right _ he)
  have hend : Run.final step (after ops₁) ops₂ = after (ops₁ ++ ops₂) := Run.final_append.symm
  refine ⟨fun hterminal => ?_, fun hrefund => ⟨fun hstay => ?_, ?_⟩⟩
  · obtain ⟨r₂, hget₂, hforward⟩ :=
      forward_of_run hl hok₂ hget (by simp [RequestState.isOneWay, hterminal]) (.inl hterminal)
    obtain rfl := Option.some.inj (hget'.symm.trans (hend ▸ hget₂))
    exact hforward.eq_of_isTerminal hterminal
  · obtain ⟨r₂, hget₂, hforward⟩ :=
      forward_of_run hl hok₂ hget (by simp [RequestState.isOneWay, hrefund]) (.inr hstay)
    obtain rfl := Option.some.inj (hget'.symm.trans (hend ▸ hget₂))
    exact hforward
  · rintro op rfl
    cases hstep : (after ops₁).step op with
    | none =>
      rw [← hend, Run.final_cons, Run.advance_of_none hstep] at hget'
      obtain rfl := Option.some.inj (hget.symm.trans hget')
      exact .inl (.inl rfl)
    | some l' =>
      rw [← hend, Run.final_cons, Run.advance_of_some hstep] at hget'
      rw [Run.history_cons_of_some hstep] at hok₂
      obtain ⟨r₂, hget₂, hforward | ⟨hreturns, hparked, -⟩⟩ :=
        (effect_of_step hl.wf hstep).forward hl (hok₂ _ List.mem_cons_self) hget
          (by simp [RequestState.isOneWay, hrefund])
      · obtain rfl := Option.some.inj (hget'.symm.trans hget₂)
        exact .inl hforward
      · obtain rfl := Option.some.inj (hget'.symm.trans hget₂)
        exact .inr ⟨hreturns, hparked⟩

/-! ### A refund that is returned -/

def sampleRequester : Bytes := List.replicate 32 1

/-- A deposit on Solana without a rate is parked, and its refund begun. -/
def refundRun : List Op :=
  [.configureReserve .goldcoinReserve 5000 0, .configureReserve .solanaReserve 5000 0,
    .foldSolDeposit 3
      { gross := 1000, feeBps := 0, fee := 0, net := 1000, netDestination := 1000, quote := none }
      sampleRequester [2] (some (.rate .feedStale)) 100,
    .beginSolanaRefund 1
      { obligationIndex := 3, requester := sampleRequester, grossCanonical := 1000,
        amountSolana := 1000 } "note"]

/-- The state of a request after a run. -/
def stateAfter (ops : List Op) (id : ℕ) : Option RequestState :=
  ((after ops).requests.get? id).map Request.state

theorem request_one_way_sample :
    stateAfter refundRun 1 = some .refundPending ∧
      ∀ r r', (after refundRun).requests.get? 1 = some r →
        (after (refundRun ++ [.recordSolanaRefundBroadcast 1])).requests.get? 1 = some r' →
        r.state.Forward r'.state ∨ ((Op.recordSolanaRefundBroadcast 1).Returns 1 ∧
          r'.state = .manualReview) := by
  refine ⟨by decide, fun r r' hget hget' => ?_⟩
  have hstate : stateAfter refundRun 1 = some .refundPending := by decide
  rw [stateAfter, hget] at hstate
  refine ((request_one_way (fun e he => ?_) hget hget').2
    (by rw [Option.some.inj hstate]; rfl)).2 _ rfl
  have hmem := Run.history_sublist.subset (List.mem_map_of_mem (f := Prod.snd) he)
  intro r _
  simp only [refundRun, List.cons_append, List.nil_append, List.mem_cons, List.not_mem_nil,
    or_false] at hmem
  obtain h | h | h | h | h := hmem <;> rw [h] <;> trivial

/-- An operator takes a refund that was never sent back to manual review. -/
theorem refund_returned :
    stateAfter refundRun 1 = some .refundPending ∧
      stateAfter (refundRun ++ [.returnRefundToManualReview 1 true "note"]) 1 = some .manualReview ∧
      ¬ RequestState.refundPending.Forward .manualReview := by
  decide

end Ledger

end Service
