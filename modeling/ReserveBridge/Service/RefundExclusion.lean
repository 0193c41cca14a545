-- SUMMARY: Refunds and payouts of Robinhood deposits side by side: the system of the ledger and the calls under way, and when no deposit is both refunded and paid.
import ReserveBridge.Service.BeginRefund
import ReserveBridge.Service.Ledger.Effects

/-!
# Refunds against payouts

Between the checks of a refund and its row lie waits in which a resumption may
take the request back to its payout. The row is inserted without another look
at the request, and broadcasters look at the row alone. What excludes the one
from the other is the state of the request at the time the row is inserted.
-/

namespace Service
open Guard

/-! ## The system -/

/-- The ledger, with the invocations of `begin_refund` under way, and the
releases that were read as payable and are being attested. -/
structure RefundSystem where
  ledger : Ledger
  refunds : List RefundCall
  releases : List ℕ

/-- The request of a call. -/
def RefundCall.request : RefundCall → ℕ
  | checked id _ _ | verified id _ _ | begun id _ | signed id _ | authorized id => id

/-- The transaction of the next step of a call, if it is one. -/
def RefundCall.op : RefundCall → Option Op
  | checked _ _ _ | begun _ _ => none
  | verified id _ digest => some (.beginRobinhoodTx .refund id digest)
  | signed id signatures => some (.recordRobinhoodAuthorization .refund id signatures)
  | authorized id => some (.markRobinhoodRefundPending id)

/-- The transactions that are steps of a call. -/
def Op.isOfCall : Op → Bool
  | .beginRobinhoodTx .refund _ _ | .recordRobinhoodAuthorization .refund _ _
  | .markRobinhoodRefundPending _ | .recordReleaseAttestation _ => true
  | _ => false

namespace RefundSystem

inductive Event
  | startRefund (id : ℕ)
  | advanceRefund (c : RefundCall) (w : Answers)
  /-- The process of a call stops. -/
  | dropRefund (c : RefundCall)
  /-- The request was read in `sourceFinalized`, and signers are asked. -/
  | startRelease (id : ℕ)
  | attestRelease (id : ℕ)
  | dropRelease (id : ℕ)
  /-- Any other transaction of any other task. -/
  | op (o : Op)

/-- One step. Each transaction runs on the ledger as it is by then. -/
def step (s : Settler) (sys : RefundSystem) : Event → Option RefundSystem
  | .startRefund id =>
    match s.check sys.ledger id with
    | .ok (some c) => some { sys with refunds := c :: sys.refunds }
    | _ => none
  | .advanceRefund c w =>
    if c ∈ sys.refunds then
      match s.advance w sys.ledger c with
      | .ok (l, next) => some { sys with ledger := l, refunds := next.toList ++ sys.refunds.erase c }
      | .error _ => some { sys with refunds := sys.refunds.erase c }
    else none
  | .dropRefund c => some { sys with refunds := sys.refunds.erase c }
  | .startRelease id =>
    if ∃ r ∈ sys.ledger.requests.get? id, r.direction.destinationIsSolana ∧ r.state = .sourceFinalized then
      some { sys with releases := id :: sys.releases }
    else none
  | .attestRelease id =>
    if id ∈ sys.releases then
      (sys.ledger.step (.recordReleaseAttestation id)).map fun l =>
        { sys with ledger := l, releases := sys.releases.erase id }
    else none
  | .dropRelease id => some { sys with releases := sys.releases.erase id }
  | .op o => if o.isOfCall then none else (sys.ledger.step o).map fun l => { sys with ledger := l }

def initial : RefundSystem where
  ledger := .empty
  refunds := []
  releases := []

/-- The state after a run. -/
abbrev after (s : Settler) (events : List Event) : RefundSystem := Run.final (step s) initial events

end RefundSystem

/-! ## Paid and refunded -/

/-- A destination payout is authorized or sent. -/
def Request.PaidOut (r : Request) : Prop :=
  r.destinationTxid.isSome ∨ r.releaseAttested = true ∨ ∃ p ∈ r.goldcoinPayout, p.state ≠ .built

instance (r : Request) : Decidable r.PaidOut := inferInstanceAs (Decidable (_ ∨ _ ∨ _))

namespace RefundSystem

/-- No request has a refund that may be sent and a payout. -/
def Exclusive (sys : RefundSystem) : Prop :=
  ∀ id r t, sys.ledger.requests.get? id = some r → r.robinhoodTx .refund = some t →
    t.state ≠ .authorizing → ¬ r.PaidOut

/-- What was read still holds at the transaction that relies on it: a refund row
is inserted while its request is parked and unpaid, and a release is attested
while its request is to be paid. -/
def Unmoved (sys : RefundSystem) : Event → Prop
  | .advanceRefund (.verified id _ _) _ =>
    ∀ r ∈ sys.ledger.requests.get? id, r.state = .manualReview ∧ ¬ r.PaidOut
  | .attestRelease id => ∀ r ∈ sys.ledger.requests.get? id, r.state = .sourceFinalized
  | _ => True

instance (sys : RefundSystem) (e : Event) : Decidable (sys.Unmoved e) := by
  unfold Unmoved
  split <;> infer_instance

end RefundSystem

/-! ## The row invariant -/

/-- A request with a refund row is a parked or refunded deposit on Robinhood,
and not paid. -/
def Request.RefundClear (r : Request) : Prop :=
  (r.robinhoodTx .refund).isSome → r.direction.sourceIsRobinhood ∧
    (r.state = .manualReview ∨ r.state.isRefundLifecycle = true) ∧ ¬ r.PaidOut

theorem Inserted.refundClear {r : Request} {δ : ℤ × ℤ} (h : Inserted r δ) : r.RefundClear := by
  have fresh : NewRow r := by cases h <;> assumption
  intro hsome
  rw [fresh.robinhoodTx] at hsome
  cases hsome

theorem Transition.refundClear {op : Op} {id : ℕ} {r r' : Request} {δ : ℤ × ℤ}
    (h : Transition op id r r' δ) (hr : r.RefundClear)
    (hbegin : ∀ digest, op = .beginRobinhoodTx .refund id digest →
      r.direction.sourceIsRobinhood ∧ r.state = .manualReview ∧ ¬ r.PaidOut)
    (hattest : op = .recordReleaseAttestation id → r.state = .sourceFinalized) : r'.RefundClear := by
  intro hsome
  -- the states the invariant leaves out
  have out : ∀ {state : RequestState}, (r.robinhoodTx .refund).isSome → r.state = state →
      state ≠ .manualReview → state.isRefundLifecycle = false → False := by
    rintro state hrow rfl hmanual hlifecycle
    rcases (hr hrow).2.1 with hstate | hstate
    · exact hmanual hstate
    · rw [hstate] at hlifecycle
      cases hlifecycle
  -- the routes it leaves out
  have elsewhere : (r.robinhoodTx .refund).isSome → ¬ r.direction.sourceIsRobinhood → False :=
    fun hrow hnot => hnot (hr hrow).1
  -- the row stays parked, or moves on in its refund
  have keep : (r.robinhoodTx .refund).isSome → r'.direction = r.direction →
      (r'.state = r.state ∨ r'.state = .manualReview ∨ r'.state.isRefundLifecycle = true) →
      (r'.PaidOut → r.PaidOut) → r'.direction.sourceIsRobinhood ∧
        (r'.state = .manualReview ∨ r'.state.isRefundLifecycle = true) ∧ ¬ r'.PaidOut := by
    intro hrow hd hstate hpaid
    obtain ⟨hsource, hstate₀, hpaid₀⟩ := hr hrow
    refine ⟨hd ▸ hsource, ?_, fun h => hpaid₀ (hpaid h)⟩
    rcases hstate with hstate | hstate
    · rwa [hstate]
    · exact hstate
  cases h with
  | expired h => exact (out hsome h (fun h => by cases h) rfl).elim
  | cancelled h => rcases h with h | h <;> exact (out hsome h (fun h => by cases h) rfl).elim
  | lateDeposit h => exact (out hsome h (fun h => by cases h) rfl).elim
  | observed _ source h₀ h₁ h =>
    rw [((h₀.rows.trans h₁.rows).trans h.rows).robinhoodTx] at hsome
    refine (elsewhere hsome fun hsource => ?_).elim
    rw [Direction.sourceIsRobinhood, source] at hsource
    cases hsource
  | finalized h => exact (out hsome h (fun h => by cases h) rfl).elim
  | spentBeforeFinalized h => exact (out hsome h (fun h => by cases h) rfl).elim
  | reorged h => rcases h with h | h <;> exact (out hsome h (fun h => by cases h) rfl).elim
  | parkedForBounds h => exact (out hsome h (fun h => by cases h) rfl).elim
  | parkedForContract h => exact (out hsome h (fun h => by cases h) rfl).elim
  | resumed _ _ _ noRefund =>
    rw [if_pos (hr hsome).1] at noRefund
    have hrow : (r.robinhoodTx .refund).isSome := hsome
    rw [noRefund] at hrow
    cases hrow
  | resumedBounds _ _ _ noRefund => exact (noRefund (.inr (.inr hsome))).elim
  | closed _ _ noRefund => exact (noRefund (.inr (.inr hsome))).elim
  | solanaRefundBroadcast =>
    refine keep (by split_ifs at hsome <;> exact hsome) (by split_ifs <;> rfl) ?_ ?_
    · split_ifs
      · exact .inr (.inr rfl)
      · exact .inl rfl
    · split_ifs <;> exact fun h => h
  | solanaRefundBegun | solanaRefundConfirmed | goldcoinRefundBegun | goldcoinRefundBroadcast
  | goldcoinRefundConfirmed | robinhoodRefundPending | robinhoodRefundConfirmed =>
    exact keep hsome rfl (.inr (.inr rfl)) fun h => h
  | refundReturned | robinhoodParked => exact keep hsome rfl (.inr (.inl rfl)) fun h => h
  | confirmations | reviewed | goldcoinRefundSigned => exact keep hsome rfl (.inl rfl) fun h => h
  | releaseSubmitted h => exact (out hsome h (fun h => by cases h) rfl).elim
  | releaseAttested hop => exact (out hsome (hattest hop) (fun h => by cases h) rfl).elim
  | releaseConfirmed h => exact (out (by split_ifs at hsome <;> exact hsome) h (fun h => by cases h) rfl).elim
  | payoutBuilt _ hnone _ p hp =>
    refine keep hsome rfl (.inl rfl) ?_
    rintro (h | h | ⟨q, ⟨⟩, hq⟩)
    · exact .inl h
    · exact .inr (.inl h)
    · exact absurd hp hq
  | payoutSigned _ _ h => exact (out hsome h (fun h => by cases h) rfl).elim
  | payoutBroadcast _ _ h => exact (out hsome h (fun h => by cases h) rfl).elim
  | payoutConfirmations hp =>
    refine keep hsome rfl (.inl rfl) ?_
    rintro (h | h | ⟨q, ⟨⟩, hq⟩)
    · exact .inl h
    · exact .inr (.inl h)
    · exact .inr (.inr ⟨_, hp, hq⟩)
  | payoutConfirmed _ _ hp hp' =>
    exact ((hr hsome).2.2 (.inr (.inr ⟨_, hp, by simp [hp']⟩))).elim
  | completionSubmitted _ h =>
    refine (elsewhere hsome ?_).elim
    rw [h]
    decide
  | completionConfirmed h => exact (out hsome h (fun h => by cases h) rfl).elim
  | @robinhoodTx kind t h =>
    by_cases hkind : RobinhoodTxKind.refund = kind
    · subst hkind
      cases hrow : r.robinhoodTx .refund with
      | none =>
        -- the row is new: what the state was is what the step is told
        obtain ⟨-, digest, hop⟩ := h hrow
        obtain ⟨hsource, hstate, hpaid⟩ := hbegin digest hop
        exact ⟨hsource, .inl hstate, hpaid⟩
      | some t₀ => exact keep (by rw [hrow]; rfl) rfl (.inl rfl) fun h => h
    · have hrow : (r.setRobinhoodTx kind t).robinhoodTx .refund = r.robinhoodTx .refund :=
        if_neg hkind
      exact keep (hrow ▸ hsome) rfl (.inl rfl) fun h => h
  | robinhoodPayoutSettled _ destination =>
    refine (elsewhere (by split_ifs at hsome <;> exact hsome) fun hsource => ?_).elim
    revert hsource destination
    cases r.direction <;> simp [Direction.sourceIsRobinhood, Direction.destinationIsRobinhood,
      Direction.sourceChain, Direction.destinationChain]
  | robinhoodPayoutCompleted h => exact (out hsome h (fun h => by cases h) rfl).elim
  | robinhoodSettled h => exact (out hsome h (fun h => by cases h) rfl).elim
  | robinhoodSettledGoldcoin h => exact (out hsome h (fun h => by cases h) rfl).elim

/-! ## Steps of the system -/

namespace RefundSystem

variable {s : Settler} {sys sys' : RefundSystem} {e : Event}

/-- The transaction an event makes, if it makes one. -/
def Event.transaction : Event → Option Op
  | .advanceRefund c _ => c.op
  | .attestRelease id => some (.recordReleaseAttestation id)
  | .op o => if o.isOfCall then none else some o
  | _ => none

/-- A step of a call is a wait or a transaction, and goes on with the same
request. -/
theorem advance_eq_ok {w : Answers} {l l' : Ledger} {c : RefundCall} {next : Option RefundCall}
    (h : s.advance w l c = .ok (l', next)) :
    (l' = l ∨ ∃ o ∈ c.op, l.step o = some l') ∧ ∀ c' ∈ next, c'.request = c.request := by
  cases c with
  | checked id d index =>
    simp only [Settler.advance, bind_eq_ok, pure_eq_ok, Prod.mk.injEq] at h
    obtain ⟨⟨auth, digest⟩, -, rfl, rfl⟩ := h
    exact ⟨.inl rfl, by rintro _ ⟨⟩; rfl⟩
  | verified id auth digest =>
    simp only [Settler.advance, bind_eq_ok, mapError_eq_ok, pure_eq_ok, Prod.mk.injEq] at h
    obtain ⟨_, hrun, rfl, rfl⟩ := h
    exact ⟨.inr ⟨_, rfl, toOption_eq_some.mpr hrun⟩, by rintro _ ⟨⟩; rfl⟩
  | begun id auth =>
    simp only [Settler.advance, bind_eq_ok, pure_eq_ok, Prod.mk.injEq] at h
    obtain ⟨_, -, rfl, rfl⟩ := h
    exact ⟨.inl rfl, by rintro _ ⟨⟩; rfl⟩
  | signed id signatures =>
    simp only [Settler.advance, bind_eq_ok, mapError_eq_ok, pure_eq_ok, Prod.mk.injEq] at h
    obtain ⟨_, hrun, rfl, rfl⟩ := h
    exact ⟨.inr ⟨_, rfl, toOption_eq_some.mpr hrun⟩, by rintro _ ⟨⟩; rfl⟩
  | authorized id =>
    simp only [Settler.advance, bind_eq_ok, mapError_eq_ok, pure_eq_ok, Prod.mk.injEq] at h
    obtain ⟨_, hrun, rfl, rfl⟩ := h
    exact ⟨.inr ⟨_, rfl, toOption_eq_some.mpr hrun⟩, by rintro _ ⟨⟩⟩

/-- What a step does: at most one transaction, and the calls under way are those
of before or newly checked. -/
theorem step_cases (h : step s sys e = some sys') :
    (sys'.ledger = sys.ledger ∨ ∃ o ∈ e.transaction, sys.ledger.step o = some sys'.ledger) ∧
      ∀ c ∈ sys'.refunds, (∃ c₀ ∈ sys.refunds, c.request = c₀.request) ∨
        ∃ r, sys.ledger.requests.get? c.request = some r ∧ r.direction.sourceIsRobinhood := by
  have kept : ∀ {calls : List RefundCall}, calls ⊆ sys.refunds → ∀ c ∈ calls,
      (∃ c₀ ∈ sys.refunds, c.request = c₀.request) ∨
        ∃ r, sys.ledger.requests.get? c.request = some r ∧ r.direction.sourceIsRobinhood :=
    fun hsub c hc => .inl ⟨c, hsub hc, rfl⟩
  cases e with
  | startRefund id =>
    simp only [step] at h
    split at h
    · rename_i c hcheck
      obtain rfl := Option.some.inj h
      refine ⟨.inl rfl, fun c' hc' => ?_⟩
      rcases List.mem_cons.mp hc' with rfl | hc'
      · obtain ⟨r, index, hget, -, hsource, -, -, -, -, rfl⟩ := Settler.check_eq_ok hcheck
        exact .inr ⟨r, hget, hsource⟩
      · exact kept (List.Subset.refl _) c' hc'
    · cases h
  | advanceRefund c w =>
    simp only [step] at h
    split_ifs at h with hmem
    split at h
    · rename_i l next hadvance
      obtain rfl := Option.some.inj h
      obtain ⟨hledger, hnext⟩ := advance_eq_ok hadvance
      refine ⟨hledger, fun c' hc' => ?_⟩
      rcases List.mem_append.mp hc' with hc' | hc'
      · exact .inl ⟨c, hmem, hnext c' (Option.mem_toList.mp hc')⟩
      · exact kept List.erase_subset c' hc'
    · obtain rfl := Option.some.inj h
      exact ⟨.inl rfl, kept List.erase_subset⟩
  | dropRefund c =>
    obtain rfl := Option.some.inj h
    exact ⟨.inl rfl, kept List.erase_subset⟩
  | startRelease id =>
    simp only [step] at h
    split_ifs at h
    obtain rfl := Option.some.inj h
    exact ⟨.inl rfl, kept (List.Subset.refl _)⟩
  | attestRelease id =>
    simp only [step] at h
    split_ifs at h
    obtain ⟨l, hl, rfl⟩ := Option.map_eq_some_iff.mp h
    exact ⟨.inr ⟨_, rfl, hl⟩, kept (List.Subset.refl _)⟩
  | dropRelease id =>
    obtain rfl := Option.some.inj h
    exact ⟨.inl rfl, kept (List.Subset.refl _)⟩
  | op o =>
    simp only [step] at h
    split_ifs at h with hcall
    obtain ⟨l, hl, rfl⟩ := Option.map_eq_some_iff.mp h
    exact ⟨.inr ⟨o, by simp [Event.transaction, hcall], hl⟩, kept (List.Subset.refl _)⟩

/-- What every state of such a run satisfies. -/
structure Inv (sys : RefundSystem) : Prop where
  wf : sys.ledger.Wf
  clear : ∀ id r, sys.ledger.requests.get? id = some r → r.RefundClear
  calls : ∀ c ∈ sys.refunds, ∃ r, sys.ledger.requests.get? c.request = some r ∧
    r.direction.sourceIsRobinhood

theorem inv_initial : initial.Inv where
  wf := Ledger.wf_empty
  clear := by
    intro id r h
    have hnone : initial.ledger.requests.get? id = none := rfl
    rw [hnone] at h
    cases h
  calls := by simp [initial]

/-- A request keeps its route over a transaction. -/
theorem source_of_step {l l' : Ledger} {id : ℕ} {r : Request} {o : Op} (hwf : l.Wf)
    (h : l.step o = some l') (hget : l.requests.get? id = some r) :
    ∃ r', l'.requests.get? id = some r' ∧ r'.direction = r.direction := by
  obtain ⟨r', hget', hpath⟩ := (Ledger.effect_of_step hwf h).row hget
  refine ⟨r', hget', ?_⟩
  clear hget'
  induction hpath with
  | refl => rfl
  | tail _ hmove ih =>
    obtain ⟨δ, hmove⟩ := hmove
    exact hmove.direction_eq.trans ih

/-- The transaction that inserts a refund row is a step of its call. -/
theorem begins_of_transaction {id digest : ℕ}
    (h : .beginRobinhoodTx .refund id digest ∈ e.transaction) :
    ∃ auth w, e = .advanceRefund (.verified id auth digest) w := by
  cases e with
  | advanceRefund c w =>
    cases c <;> cases h
    exact ⟨_, w, rfl⟩
  | attestRelease id => cases h
  | op o =>
    simp only [Event.transaction] at h
    split_ifs at h with hcall
    · cases h
    · obtain rfl := Option.some.inj h
      exact absurd rfl hcall
  | _ => cases h

/-- And so is the one that attests a release. -/
theorem attests_of_transaction {id : ℕ} (h : .recordReleaseAttestation id ∈ e.transaction) :
    e = .attestRelease id := by
  cases e with
  | advanceRefund c w => cases c <;> cases h
  | attestRelease id =>
    cases h
    rfl
  | op o =>
    simp only [Event.transaction] at h
    split_ifs at h with hcall
    · cases h
    · obtain rfl := Option.some.inj h
      exact absurd rfl hcall
  | _ => cases h

theorem Inv.step (hinv : sys.Inv) (hunmoved : sys.Unmoved e) (h : step s sys e = some sys') :
    sys'.Inv := by
  obtain ⟨hledger, hcalls⟩ := step_cases h
  have known : ∀ c ∈ sys'.refunds, ∃ r, sys.ledger.requests.get? c.request = some r ∧
      r.direction.sourceIsRobinhood := by
    intro c hc
    rcases hcalls c hc with ⟨c₀, hc₀, hreq⟩ | hnew
    · rw [hreq]
      exact hinv.calls c₀ hc₀
    · exact hnew
  rcases hledger with hledger | ⟨o, ho, hstep⟩
  · exact ⟨hledger ▸ hinv.wf, hledger ▸ hinv.clear, hledger ▸ known⟩
  refine ⟨hinv.wf.step hstep, ?_, fun c hc => ?_⟩
  · refine (Ledger.effect_of_step hinv.wf hstep).forall_rows_found (P := fun _ r => r.RefundClear)
      (fun _ _ _ hi => hi.refundClear) (fun id r r' δ hfound hmove hr => ?_) hinv.clear
    refine hmove.refundClear hr (fun digest hop => ?_) fun hop => ?_
    · -- the row of the call is parked and unpaid, and of a deposit on Robinhood
      subst hop
      have hget := hfound rfl
      obtain ⟨auth, w, rfl⟩ := begins_of_transaction ho
      obtain ⟨hstate, hpaid⟩ := hunmoved r hget
      simp only [RefundSystem.step] at h
      split_ifs at h with hmem
      obtain ⟨r₀, hget₀, hsource⟩ := hinv.calls _ hmem
      obtain rfl := Option.some.inj (hget.symm.trans hget₀)
      exact ⟨hsource, hstate, hpaid⟩
    · subst hop
      obtain rfl := attests_of_transaction ho
      exact hunmoved r (hfound rfl)
  · obtain ⟨r, hget, hsource⟩ := known c hc
    obtain ⟨r', hget', hd⟩ := source_of_step hinv.wf hstep hget
    exact ⟨r', hget', hd ▸ hsource⟩

theorem Inv.exclusive (hinv : sys.Inv) : sys.Exclusive :=
  fun id r _ hget ht _ => (hinv.clear id r hget (by rw [ht]; rfl)).2.2

/-! ## Runs -/

/-- In every run in which what was read still holds when a refund row is
inserted and when a release is attested, no request is both refunded and paid. -/
theorem refund_excludes_payout {s : Settler} {events : List Event}
    (h : ∀ x ∈ Run.history (step s) initial events, x.1.Unmoved x.2) :
    (after s events).Exclusive :=
  (Run.invariant_of_history (fun _ _ _ hinv hunmoved hstep => Inv.step hinv hunmoved hstep)
    inv_initial events h).exclusive

/-- A refund of the sample deposit, step by step. -/
def sampleEvents : List Event :=
  [.op (.configureReserve .solanaReserve 5000 0),
   .op (.setting (.admission .solanaReserve true)),
   .op (.foldRobinhoodDeposit Ledger.sampleObservation Ledger.sampleAmounts (some [2]) true none 100),
   .startRefund 1,
   .advanceRefund (.checked 1 .rhnToSol 0) sampleAnswers]

/-- What the sample call reads off the chain. -/
def sampleAuth : RefundAuth where
  route := .rhnToSol
  obligationIndex := 0
  recipient := 1
  amount := 1000
  signerEpoch := 1
  expiry := 800

/-- The row is inserted, a quorum signs, and the authorization is recorded. -/
def sampleAuthorization : List Event :=
  [.advanceRefund (.verified 1 sampleAuth 1800) sampleAnswers,
   .advanceRefund (.begun 1 sampleAuth) sampleAnswers,
   .advanceRefund (.signed 1 [(1, 1801), (2, 1802)]) sampleAnswers]

theorem refund_excludes_payout_sample :
    (after sampleSettler (sampleEvents ++ sampleAuthorization)).Exclusive :=
  refund_excludes_payout (by decide)

/-- The same with a resumption between the chain reads and the refund row. -/
def racingEvents : List Event :=
  sampleEvents ++
    [.op (.setting (.admission .solanaReserve false)), .op (.resumeManualReview .rhnToSol 1 200)] ++
    sampleAuthorization ++ [.startRelease 1, .attestRelease 1]

/-- The refund is authorized, and so is the release. -/
theorem refund_and_payout : ¬ (after sampleSettler racingEvents).Exclusive := by
  intro h
  have hrow : ((after sampleSettler racingEvents).ledger.requests.get? 1).any
      (fun r => (r.robinhoodTx .refund).any (·.state = .authorized) && r.releaseAttested) = true := by
    decide
  simp only [Option.any_eq_true, Bool.and_eq_true, decide_eq_true_eq] at hrow
  obtain ⟨r, hget, ⟨t, ht, hstate⟩, hattested⟩ := hrow
  exact h 1 r t hget ht (by simp [hstate]) (.inr (.inl hattested))

end RefundSystem

end Service
