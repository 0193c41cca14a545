-- SUMMARY: Whether a stored quorum signs the payload stored with it, over runs of the authorization ticks that stop, fail and are repeated.
import ReserveBridge.Service.Ledger.Step
import ReserveBridge.Service.Robinhood.Forward
import ReserveBridge.Service.Robinhood.Settler

/-!
# The quorum of an operation

A row keeps the payload it was begun with. A tick that finds the row still
authorizing asks the signers again, for an authorization of its own: with the
expiry of its clock, under the signer epoch of the moment. A quorum for that
one is stored next to the payload of the first attempt, and the call that is
rebuilt from the row carries signatures over something else.
-/

namespace Service.Robinhood
open Guard

/-! ## What a row spells -/

theorem u64_asI64 (n : UInt64) : u64 (asI64 n.toNat) = n := by
  have hn := n.toNat_lt
  have hmod : asU64 (asI64 n.toNat) = n.toNat := by
    rw [asU64, asI64, show (2 : ℤ) ^ 64 = ((2 ^ 64 : ℕ) : ℤ) by norm_cast, Int.bmod_emod]
    omega
  rw [u64, hmod, UInt64.ofNat_toNat]

/-- The terms in the columns. -/
def Payload.terms (p : Payload) : Terms where
  kind := p.kind
  route := p.route
  contractRequestId := p.contractRequestId
  obligationIndex := p.obligationIndex.map u64
  recipient := p.recipient
  amount := p.amountRobinhood

/-- A payload that the schema admits spells an authorization. -/
theorem Payload.Checks.rebuildAuthorization {p : Payload} (h : p.Checks)
    (hamount : ∀ n ∈ p.amountRobinhood, n < 2 ^ 128) :
    p.rebuildAuthorization = .ok ⟨p.terms, u64 p.signerEpoch, u64 p.expiry⟩ := by
  have hroute : p.kind = .treasuryWithdraw ∨ p.route.isSome := by
    rw [h.route_none, Option.isSome_iff_ne_none]
    exact em _
  have hobligation : p.kind = .payout ∨ p.kind = .treasuryWithdraw ∨ p.obligationIndex.isSome := by
    rw [← or_assoc, h.obligationIndex_none, Option.isSome_iff_ne_none]
    exact em _
  have hrecipient : p.kind = .settlement ∨ p.recipient.isSome := by
    rw [h.recipient_none, Option.isSome_iff_ne_none]
    exact em _
  have hbounded : p.kind = .settlement ∨ ∃ n ∈ p.amountRobinhood, n < 2 ^ 128 := by
    rw [h.recipient_none, h.amountRobinhood_none]
    cases hsome : p.amountRobinhood with
    | none => exact .inl rfl
    | some n => exact .inr ⟨n, rfl, hamount n hsome⟩
  simp only [Payload.rebuildAuthorization, bind_eq_ok, require_eq_ok, exists_unit, pure_eq_ok]
  exact ⟨hroute, hobligation, hrecipient, hbounded, rfl⟩

namespace Settler

variable {s : Settler} {id digest : ℕ} {a : Authorization}

/-- A row says what it was begun for. -/
theorem terms_newTx : (s.newTx id a digest).payload.terms = a.toTerms := by
  have hindex : (s.newTx id a digest).payload.obligationIndex.map u64 = a.obligationIndex := by
    cases hsome : a.obligationIndex with
    | none => simp only [newTx, NewTx.payload, hsome, Option.map_none]
    | some i => simp only [newTx, NewTx.payload, hsome, Option.map_some, u64_asI64]
  rw [Payload.terms, hindex]
  simp only [newTx, NewTx.payload]

/-- A row that the schema admits spells the authorization it was begun for. -/
theorem rebuildAuthorization_newTx (hchecks : (s.newTx id a digest).payload.Checks)
    (hamount : ∀ n ∈ a.amount, n < 2 ^ 128) :
    (s.newTx id a digest).payload.rebuildAuthorization = .ok a := by
  have hepoch : u64 (s.newTx id a digest).payload.signerEpoch = a.signerEpoch := by
    simp only [newTx, NewTx.payload, u64_asI64]
  have hexpiry : u64 (s.newTx id a digest).payload.expiry = a.expiry := by
    simp only [newTx, NewTx.payload, u64_asI64]
  rw [hchecks.rebuildAuthorization hamount, terms_newTx, hepoch, hexpiry]

/-- The quorum of a row signs what the row spells: the call is rebuilt, it says
what is stored, and the contract accepts its signatures. -/
def QuorumAgrees (s : Settler) (t : Tx) : Prop :=
  ∃ a, s.buildCall t = .ok ⟨a, t.signatures.map Prod.snd⟩ ∧ a.expiry = u64 t.expiry ∧
    a.signerEpoch = u64 t.signerEpoch ∧ s.digest a = some t.authDigest ∧
    s.verifier.Accepts t.authDigest t.signatures

/-- What holds of every row: it spells the authorization its digest is of, and
has a quorum over it, or none yet. -/
structure Agreed (s : Settler) (t : Tx) : Prop where
  spelled : ∃ a, t.rebuildAuthorization = .ok a ∧ s.digest a = some t.authDigest
  accepted : t.signatures ≠ [] → s.verifier.Accepts t.authDigest t.signatures
  collected : t.signatures = [] → t.state = .authorizing ∨ t.state = .manualReview

theorem Agreed.quorumAgrees {t : Tx} (h : s.Agreed t)
    (hcollected : t.signatures ≠ [] ∨ t.state ≠ .authorizing ∧ t.state ≠ .manualReview) :
    s.QuorumAgrees t := by
  have hsignatures : t.signatures ≠ [] := by
    rcases hcollected with hsignatures | ⟨hauthorizing, hreview⟩
    · exact hsignatures
    · intro hnone
      rcases h.collected hnone with hstate | hstate
      · exact hauthorizing hstate
      · exact hreview hstate
  obtain ⟨a, hrebuild, hdigest⟩ := h.spelled
  have haccepts := h.accepted hsignatures
  refine ⟨a, ?_, ?_, ?_, hdigest, haccepts⟩
  · simp only [buildCall, bind_eq_ok, require_eq_ok, exists_unit, orFail_eq_ok, pure_eq_ok]
    exact ⟨haccepts.length, a, hrebuild, t.authDigest, hdigest, rfl, rfl⟩
  · simp only [Payload.rebuildAuthorization, bind_eq_ok, require_eq_ok, exists_unit,
      pure_eq_ok] at hrebuild
    obtain ⟨-, -, -, -, rfl⟩ := hrebuild
    rfl
  · simp only [Payload.rebuildAuthorization, bind_eq_ok, require_eq_ok, exists_unit,
      pure_eq_ok] at hrebuild
    obtain ⟨-, -, -, -, rfl⟩ := hrebuild
    rfl

end Settler

/-! ## What a call keeps -/

namespace Tables

variable {T T' : Tables} {kind : TxKind} {id k : ℕ} {t : Tx}

theorem txFor_eq_some (h : T.txFor kind id = some (k, t)) :
    T.transactions.get? k = some t ∧ t.kind = kind ∧ t.requestId = some id := by
  have hfound := List.find?_some h
  rw [decide_eq_true_eq] at hfound
  exact ⟨Store.get?_of_mem (List.mem_of_find?_eq_some h), hfound⟩

/-- Every row agrees. -/
def Agreed (s : Settler) (T : Tables) : Prop :=
  ∀ k t, T.transactions.get? k = some t → s.Agreed t

end Tables

namespace Settler

variable {s : Settler} {T T' : Tables} {op : Op} {id k now : ℕ} {t t' : Tx} {a : Authorization}

/-- A row with the same payload and quorum agrees, unless it goes on without one. -/
theorem Agreed.of_same (h : s.Agreed t) (hpayload : t'.toPayload = t.toPayload)
    (hsignatures : t'.signatures = t.signatures)
    (hstate : t'.state = .manualReview ∨ t'.state = t.state ∨
      t.state ≠ .authorizing ∧ t.state ≠ .manualReview) : s.Agreed t' := by
  refine ⟨?_, ?_, ?_⟩
  · rw [hpayload]
    exact h.spelled
  · rw [hpayload, hsignatures]
    exact h.accepted
  · intro hnone
    have hbefore := h.collected (hsignatures ▸ hnone)
    rcases hstate with hparked | hsame | ⟨hauthorizing, hreview⟩
    · exact .inr hparked
    · rwa [hsame]
    · exact absurd hbefore (not_or.mpr ⟨hauthorizing, hreview⟩)

/-- An update keeps a row agreed, if a quorum it stores is over the digest. -/
theorem Agreed.edge (h : s.Agreed t) (hedge : Edge T id t op t')
    (hquorum : ∀ signatures now, op = .recordAuthorization id signatures now →
      s.verifier.Accepts t.authDigest signatures) : s.Agreed t' := by
  cases hedge with
  | @authorized signatures now hlength hdistinct hnone hstate =>
    exact ⟨h.spelled, fun _ => hquorum signatures now rfl, fun hempty => by
      rw [show signatures = [] from hempty] at hlength
      cases hlength⟩
  | allocated => exact h.of_same rfl rfl (.inr (.inl rfl))
  | signed hnone hstate => exact h.of_same rfl rfl (.inr (.inr (by simp [hstate])))
  | sent hstate =>
    refine h.of_same rfl rfl (.inr (.inr ?_))
    rcases hstate with hstate | hstate <;> simp [hstate]
  | replaced => exact h.of_same rfl rfl (.inr (.inl rfl))
  | receiptMoved => exact h.of_same rfl rfl (.inl rfl)
  | mined hstate =>
    refine h.of_same rfl rfl (.inr (.inr ?_))
    rcases hstate with hstate | hstate <;> simp [hstate]
  | confirmed => exact h.of_same rfl rfl (.inr (.inl rfl))
  | finalized hstate => exact h.of_same rfl rfl (.inr (.inr (by simp [hstate])))
  | parked => exact h.of_same rfl rfl (.inl rfl)

/-- The row is found with what it was begun for, or begun for `a`. -/
theorem begin_agreed {now : ℤ} (hall : T.Agreed s) (h : s.begin T id a now = .ok (k, T'))
    (hamount : ∀ n ∈ a.amount, n < 2 ^ 128) :
    T'.Agreed s ∧ ∃ t, T'.transactions.get? k = some t ∧
      (T.txFor a.kind id = some (k, t) ∨
        T.txFor a.kind id = none ∧ s.digest a = some t.authDigest) := by
  simp only [begin, bind_eq_ok, orFail_eq_ok, mapError_eq_ok, pure_eq_ok] at h
  obtain ⟨digest, hdigest, ⟨outcome, T₁⟩, hbegin, heq⟩ := h
  obtain ⟨rfl, rfl⟩ := Prod.mk.inj heq
  have hkept : T₁.Agreed s := by
    intro k' t' hget'
    rcases (Tables.beginTx_effect hbegin).origin hget' with hsame | ⟨t, hget, hedge⟩ | hnew
    · exact hall k' t' hsame
    · cases hedge
    · obtain ⟨new, now', hop, rfl, hchecks⟩ := hnew
      obtain ⟨rfl, rfl⟩ := Op.beginTx.inj hop
      exact ⟨⟨a, rebuildAuthorization_newTx hchecks.payload hamount, hdigest⟩,
        fun hsome => absurd rfl hsome, fun _ => .inl rfl⟩
  refine ⟨hkept, ?_⟩
  have hexisting : T.existing (s.newTx id a digest) = T.txFor a.kind id := rfl
  simp only [Tables.beginTx, bind_eq_ok, require_eq_ok, exists_unit, hexisting] at hbegin
  obtain ⟨-, hbegin⟩ := hbegin
  cases hfor : T.txFor a.kind id with
  | some e =>
    obtain ⟨k', t⟩ := e
    rw [hfor, pure_eq_ok] at hbegin
    obtain ⟨rfl, rfl⟩ := Prod.mk.inj hbegin
    exact ⟨t, (Tables.txFor_eq_some hfor).1, .inl rfl⟩
  | none =>
    rw [hfor] at hbegin
    simp only [bind_eq_ok, require_eq_ok, exists_unit, orFail_eq_ok, pure_eq_ok] at hbegin
    obtain ⟨-, -, transactions, hinsert, heq⟩ := hbegin
    obtain ⟨rfl, rfl⟩ := Prod.mk.inj heq
    obtain ⟨-, hrows⟩ := Table.insert_eq_some hinsert
    refine ⟨(s.newTx id a digest).row now, ?_, .inr ⟨rfl, hdigest⟩⟩
    exact (hrows _).trans (if_pos rfl)

/-- A quorum is stored with a row whose digest is that of what was asked for. -/
theorem collectAndStore_agreed {w : AuthAnswers} (hall : T.Agreed s)
    (h : s.collectAndStore T k a w = .ok T') (hget : T.transactions.get? k = some t)
    (hdigest : ∀ signatures, s.verifier.collectQuorum s.digest w.signers a = .ok signatures →
      s.digest a = some t.authDigest) : T'.Agreed s := by
  simp only [collectAndStore, bind_eq_ok, mapError_eq_ok] at h
  obtain ⟨signatures, hcollected, hrecord⟩ := h
  obtain ⟨digest, hsome, haccepts⟩ := Quorum.Verifier.collectQuorum_eq_ok hcollected
  obtain rfl := Option.some.inj (hsome.symm.trans (hdigest signatures hcollected))
  intro k' t' hget'
  rcases (Tables.recordAuthorization_effect hrecord).origin hget' with hsame | ⟨t₀, hget₀, hedge⟩ | hnew
  · exact hall k' t' hsame
  · refine (hall k' t₀ hget₀).edge hedge fun signatures' now' hop => ?_
    obtain ⟨rfl, rfl, -⟩ := Op.recordAuthorization.inj hop
    obtain rfl := Option.some.inj (hget₀.symm.trans hget)
    exact haccepts
  · obtain ⟨new, now', hop, -⟩ := hnew
    cases hop

/-- A tick keeps the rows agreed, if it collects no quorum or asks again for
what the row spells. -/
theorem beginAndCollect_agreed {w : AuthAnswers} {commits : ℕ} (hall : T.Agreed s)
    (hamount : ∀ n ∈ a.amount, n < 2 ^ 128)
    (hretry : 2 ≤ commits → ∀ e ∈ T.txFor a.kind id,
      (s.verifier.collectQuorum s.digest w.signers a).toOption.isSome →
        e.2.rebuildAuthorization = .ok a) :
    (s.beginAndCollect T id a w commits).Agreed s := by
  rw [beginAndCollect]
  split_ifs with hnone hone
  · exact hall
  · split
    · exact hall
    · rename_i hbegin
      exact (begin_agreed hall hbegin hamount).1
  · split
    · exact hall
    · rename_i k begun hbegin
      obtain ⟨hbegun, t, hget, hfor⟩ := begin_agreed hall hbegin hamount
      split
      · exact hbegun
      · rename_i stored hstore
        refine collectAndStore_agreed hbegun hstore hget fun signatures hcollected => ?_
        rcases hfor with hfound | ⟨-, hdigest⟩
        · have hrebuild := hretry (by omega) (k, t) hfound (by rw [hcollected]; rfl)
          obtain ⟨b, hb, hdigest⟩ := (hbegun k t hget).spelled
          rw [← Except.ok.inj (hb.symm.trans hrebuild), hdigest]
        · exact hdigest

end Settler

/-! ## Runs -/

/-- What happens around the operations: the ticks, each up to a commit, the
phases behind the authorization, and the ledger's own operations. -/
inductive AuthOp
  | authorizePayout (w : AuthAnswers) (id commits : ℕ)
  | authorizeSettlement (w : AuthAnswers) (id commits : ℕ)
  | beginRefund (w : AuthAnswers) (id commits : ℕ)
  | row (op : Op)
  | ledger (op : Service.Op)

/-- The calls that belong to the authorization phase. -/
def Op.authorizes : Op → Bool
  | .beginTx .. | .recordAuthorization .. => true
  | _ => false

namespace Settler

/-- One event. A row is begun and authorized by the ticks only. -/
def step (s : Settler) (W : World) : AuthOp → Option World
  | .authorizePayout w id commits => some (s.authorizePayout W w id commits)
  | .authorizeSettlement w id commits => some (s.authorizeSettlement W w id commits)
  | .beginRefund w id commits => some (s.beginRefund W w id commits)
  | .row op => if op.authorizes then none else (W.tables.step op).map fun T => { W with tables := T }
  | .ledger op => (W.ledger.step op).map fun l => { W with ledger := l }

abbrev after (s : Settler) (ops : List AuthOp) : World := Run.final s.step .empty ops

abbrev history (s : Settler) (ops : List AuthOp) : List (World × AuthOp) :=
  Run.history s.step .empty ops

/-- A tick that finds its row still authorizing asks for what the row spells,
when it gets a quorum for what it asks. -/
def AsksAgain (s : Settler) (W : World) (w : AuthAnswers) (kind : TxKind) (id : ℕ)
    (terms : Request → ℕ → Except SettlementError Terms) : Prop :=
  ∀ e ∈ W.tables.txFor kind id, ∀ r ∈ (W.ledger.request id).toOption,
    ∀ x ∈ (terms r id).toOption, ∀ a ∈ (s.authorization w x).toOption,
      (s.verifier.collectQuorum s.digest w.signers a).toOption.isSome →
        a.expiry = u64 e.2.expiry ∧ a.signerEpoch = u64 e.2.signerEpoch ∧ a.toTerms = e.2.terms

instance (s : Settler) (W : World) (w : AuthAnswers) (kind : TxKind) (id : ℕ)
    (terms : Request → ℕ → Except SettlementError Terms) :
    Decidable (s.AsksAgain W w kind id terms) :=
  inferInstanceAs (Decidable (∀ e ∈ W.tables.txFor kind id, _))

/-- The condition on an event: a tick that comes to collecting signatures asks
for what was stored, if it was stored by another tick. -/
def KeepsAsking (s : Settler) (W : World) : AuthOp → Prop
  | .authorizePayout w id commits =>
    2 ≤ commits → ¬ isBegun W.tables .payout id → s.AsksAgain W w .payout id s.payoutTerms
  | .authorizeSettlement w id commits =>
    2 ≤ commits → ¬ isBegun W.tables .settlement id →
      s.AsksAgain W w .settlement id s.settlementTerms
  | .beginRefund .. | .row _ | .ledger _ => True

instance (s : Settler) (W : World) (op : AuthOp) : Decidable (s.KeepsAsking W op) :=
  match op with
  | .authorizePayout _ _ _ => inferInstanceAs (Decidable (_ → _))
  | .authorizeSettlement _ _ _ => inferInstanceAs (Decidable (_ → _))
  | .beginRefund _ _ _ => inferInstanceAs (Decidable True)
  | .row _ => inferInstanceAs (Decidable True)
  | .ledger _ => inferInstanceAs (Decidable True)

variable {s : Settler} {W : World} {w : AuthAnswers} {id : ℕ} {a : Authorization} {terms : Terms}
  {r : Request}

theorem authorization_eq_ok (h : s.authorization w terms = .ok a) :
    ∃ epoch, w.signerEpoch = some epoch ∧ a = ⟨terms, epoch, s.expiryAt w.now⟩ := by
  simp only [authorization, bind_eq_ok, orFail_eq_ok, pure_eq_ok] at h
  obtain ⟨epoch, hepoch, rfl⟩ := h
  exact ⟨epoch, hepoch, rfl⟩

theorem payoutTerms_eq_ok (h : s.payoutTerms r id = .ok terms) :
    terms.kind = .payout ∧ ∀ n ∈ terms.amount, n < 2 ^ 128 := by
  simp only [payoutTerms, payoutAmount, bind_eq_ok, orFail_eq_ok, require_eq_ok, exists_unit,
    pure_eq_ok] at h
  obtain ⟨_, ⟨net, -, hbound, rfl⟩, recipient, -, identity, -, contractRequestId, -, rfl⟩ := h
  refine ⟨rfl, fun n hn => ?_⟩
  obtain rfl := Option.some.inj hn
  exact hbound

theorem settlementTerms_eq_ok (h : s.settlementTerms r id = .ok terms) :
    terms.kind = .settlement ∧ ∀ n ∈ terms.amount, n < 2 ^ 128 := by
  simp only [settlementTerms, bind_eq_ok, orFail_eq_ok, require_eq_ok, exists_unit,
    pure_eq_ok] at h
  obtain ⟨index, -, -, contractRequestId, -, rfl⟩ := h
  exact ⟨rfl, fun n hn => by cases hn⟩

theorem refundTerms_eq_ok {obligation : Obligation} (h : s.refundTerms r id obligation = .ok terms) :
    terms.kind = .refund ∧ ∀ n ∈ terms.amount, n < 2 ^ 128 := by
  simp only [refundTerms, bind_eq_ok, orFail_eq_ok, require_eq_ok, exists_unit, pure_eq_ok] at h
  obtain ⟨index, -, -, -, hbound, contractRequestId, -, rfl⟩ := h
  refine ⟨rfl, fun n hn => ?_⟩
  obtain rfl := Option.some.inj hn
  exact hbound

/-- Asking again for what a row spells, for any kind of operation. -/
theorem AsksAgain.rebuildAuthorization {kind : TxKind}
    {termsOf : Request → ℕ → Except SettlementError Terms} (h : s.AsksAgain W w kind id termsOf)
    (hall : W.tables.Agreed s) (hrequest : W.ledger.request id = .ok r)
    (hterms : termsOf r id = .ok terms) (ha : s.authorization w terms = .ok a) :
    ∀ e ∈ W.tables.txFor kind id,
      (s.verifier.collectQuorum s.digest w.signers a).toOption.isSome →
        e.2.rebuildAuthorization = .ok a := by
  rintro ⟨k, t⟩ hfound hcollected
  obtain ⟨hexpiry, hepoch, hsame⟩ := h (k, t) hfound r (toOption_eq_some.mpr hrequest) terms
    (toOption_eq_some.mpr hterms) a (toOption_eq_some.mpr ha) hcollected
  obtain ⟨b, hb, -⟩ := (hall k t (Tables.txFor_eq_some hfound).1).spelled
  have hspelled : b = ⟨t.terms, u64 t.signerEpoch, u64 t.expiry⟩ := by
    simp only [Payload.rebuildAuthorization, bind_eq_ok, require_eq_ok, exists_unit,
      pure_eq_ok] at hb
    obtain ⟨-, -, -, -, rfl⟩ := hb
    rfl
  rw [hb, hspelled, ← hexpiry, ← hepoch, ← hsame]

theorem authorizePayout_agreed {commits : ℕ} (hall : W.tables.Agreed s)
    (hasks : 2 ≤ commits → ¬ isBegun W.tables .payout id → s.AsksAgain W w .payout id s.payoutTerms) :
    (s.authorizePayout W w id commits).tables.Agreed s := by
  rw [authorizePayout]
  by_cases hbegun : isBegun W.tables .payout id
  · rwa [if_pos hbegun]
  · rw [if_neg hbegun]
    split
    · exact hall
    · split <;> exact hall
    · rename_i a hprepare
      simp only [preparePayout, bind_eq_ok, mapError_eq_ok, require_eq_ok, exists_unit,
        orFail_eq_ok] at hprepare
      obtain ⟨r, hrequest, -, amount, -, limits, -, hprepare⟩ := hprepare
      by_cases hbounds : amount < limits.1 ∨ limits.2 < amount
      · rw [if_pos hbounds, pure_eq_ok] at hprepare
        cases hprepare
      · rw [if_neg hbounds] at hprepare
        simp only [bind_eq_ok, pure_eq_ok] at hprepare
        obtain ⟨terms, hterms, a', ha, heq⟩ := hprepare
        obtain rfl := Option.some.inj heq
        obtain ⟨epoch, -, rfl⟩ := authorization_eq_ok ha
        obtain ⟨hkind, hamount⟩ := payoutTerms_eq_ok hterms
        refine beginAndCollect_agreed hall hamount fun hcommits => ?_
        rw [show (⟨terms, epoch, s.expiryAt w.now⟩ : Authorization).kind = .payout from hkind]
        exact (hasks hcommits hbegun).rebuildAuthorization hall hrequest hterms ha

theorem authorizeSettlement_agreed {commits : ℕ} (hall : W.tables.Agreed s)
    (hasks : 2 ≤ commits → ¬ isBegun W.tables .settlement id →
      s.AsksAgain W w .settlement id s.settlementTerms) :
    (s.authorizeSettlement W w id commits).tables.Agreed s := by
  rw [authorizeSettlement]
  by_cases hbegun : isBegun W.tables .settlement id
  · rwa [if_pos hbegun]
  · rw [if_neg hbegun]
    split
    · exact hall
    · exact hall
    · rename_i a hprepare
      simp only [prepareSettlement, bind_eq_ok, mapError_eq_ok] at hprepare
      obtain ⟨r, hrequest, due, -, hprepare⟩ := hprepare
      cases due with
      | false =>
        rw [if_pos (by simp), pure_eq_ok] at hprepare
        cases hprepare
      | true =>
        rw [if_neg (by simp)] at hprepare
        simp only [bind_eq_ok, pure_eq_ok] at hprepare
        obtain ⟨terms, hterms, a', ha, heq⟩ := hprepare
        obtain rfl := Option.some.inj heq
        obtain ⟨epoch, -, rfl⟩ := authorization_eq_ok ha
        obtain ⟨hkind, hamount⟩ := settlementTerms_eq_ok hterms
        refine beginAndCollect_agreed hall hamount fun hcommits => ?_
        rw [show (⟨terms, epoch, s.expiryAt w.now⟩ : Authorization).kind = .settlement from hkind]
        exact (hasks hcommits hbegun).rebuildAuthorization hall hrequest hterms ha

/-- A refund asks once: a row that is there ends the tick. -/
theorem beginRefund_agreed {commits : ℕ} (hall : W.tables.Agreed s) :
    (s.beginRefund W w id commits).tables.Agreed s := by
  rw [beginRefund]
  split
  · exact hall
  · exact hall
  · rename_i a hprepare
    rw [prepareRefund] at hprepare
    by_cases hfound : (W.tables.txFor .refund id).isSome
    · simp only [if_pos hfound, pure_eq_ok] at hprepare
      cases hprepare
    · rw [if_neg hfound] at hprepare
      simp only [bind_eq_ok, mapError_eq_ok, require_eq_ok, exists_unit, orFail_eq_ok,
        pure_eq_ok] at hprepare
      obtain ⟨-, r, -, -, -, -, -, -, -, -, obligation, -, terms, hterms, a', ha, heq⟩ := hprepare
      obtain rfl := Option.some.inj heq
      obtain ⟨epoch, -, rfl⟩ := authorization_eq_ok ha
      obtain ⟨hkind, hamount⟩ := refundTerms_eq_ok hterms
      have hbegun : (s.beginAndCollect W.tables id ⟨terms, epoch, s.expiryAt w.now⟩ w commits).Agreed s :=
        beginAndCollect_agreed hall hamount fun _ e he => by
          rw [show (⟨terms, epoch, s.expiryAt w.now⟩ : Authorization).kind = .refund from hkind] at he
          exact absurd (by rw [he]; rfl) hfound
      dsimp only
      split_ifs <;> exact hbegun

theorem step_agreed {W' : World} {op : AuthOp} (hall : W.tables.Agreed s)
    (hasks : s.KeepsAsking W op) (hstep : s.step W op = some W') : W'.tables.Agreed s := by
  cases op with
  | authorizePayout w id commits =>
    obtain rfl := Option.some.inj hstep
    exact authorizePayout_agreed hall hasks
  | authorizeSettlement w id commits =>
    obtain rfl := Option.some.inj hstep
    exact authorizeSettlement_agreed hall hasks
  | beginRefund w id commits =>
    obtain rfl := Option.some.inj hstep
    exact beginRefund_agreed hall
  | row op =>
    rw [step] at hstep
    split_ifs at hstep with hauthorizes
    obtain ⟨T', hrow, rfl⟩ := Option.map_eq_some_iff.mp hstep
    intro k t' hget'
    rcases (Tables.effect_of_step hrow).origin hget' with hsame | ⟨t, hget, hedge⟩ | hnew
    · exact hall k t' hsame
    · refine (hall k t hget).edge hedge fun signatures now hop => ?_
      exact absurd (by rw [hop]; rfl) hauthorizes
    · obtain ⟨new, now, hop, -⟩ := hnew
      exact absurd (by rw [hop]; rfl) hauthorizes
  | ledger op =>
    obtain ⟨l', -, rfl⟩ := Option.map_eq_some_iff.mp hstep
    exact hall

theorem empty_agreed : World.empty.tables.Agreed s := by
  intro k t hget
  cases hget

/-! ## A sample deposit -/

/-- Two signers that sign what they are asked for. -/
def sampleSigners : List (Quorum.Signer Authorization) :=
  [⟨1, fun a => .signed (a.expiry.toNat + 1)⟩, ⟨2, fun a => .signed (a.expiry.toNat + 2)⟩]

def sampleAnswers (now : ℤ) (signers : List (Quorum.Signer Authorization)) : AuthAnswers where
  now := now
  signerEpoch := some 0
  outboundLimits := some (0, 2 ^ 100)
  obligation := none
  signers := signers

/-- A deposit on Solana for Robinhood, and a tick that reaches no signer. -/
def sampleFirstTick : List AuthOp :=
  [.ledger (.configureReserve .robinhoodReserve 5000 50),
    .ledger (.foldSolDepositToRobinhood 0 Ledger.sampleAmounts [1] (some [2]) [3] true none 100),
    .row (.requestCreated 1), .authorizePayout (sampleAnswers 100 []) 1 2]

/-! ## The quorum signs the payload -/

/-- In a run whose ticks keep asking for what is stored, every row that is
authorized, or was before it was parked, has a quorum over what it spells. -/
theorem quorum_agrees (s : Settler) (ops : List AuthOp)
    (hasks : ∀ e ∈ s.history ops, s.KeepsAsking e.1 e.2) :
    ∀ k t, (s.after ops).tables.transactions.get? k = some t →
      t.signatures ≠ [] ∨ t.state ≠ .authorizing ∧ t.state ≠ .manualReview → s.QuorumAgrees t := by
  intro k t hget hcollected
  have hall : (s.after ops).tables.Agreed s :=
    Run.invariant_of_history (fun _ _ _ hall hasks hstep => step_agreed hall hasks hstep)
      empty_agreed ops hasks
  exact (hall k t hget).quorumAgrees hcollected

/-- A retry in the same second asks for the same. -/
theorem quorum_agrees_sample : ∃ t,
    (sample.after (sampleFirstTick ++ [.authorizePayout (sampleAnswers 100 sampleSigners) 1 2])).tables.transactions.get? 1 =
      some t ∧ t.state = .authorized ∧ sample.QuorumAgrees t := by
  have hauthorized : ((sample.after (sampleFirstTick ++
      [.authorizePayout (sampleAnswers 100 sampleSigners) 1 2])).tables.transactions.get? 1).map
        Tx.state = some .authorized := by decide
  obtain ⟨t, hget, hstate⟩ := Option.map_eq_some_iff.mp hauthorized
  exact ⟨t, hget, hstate, quorum_agrees sample _ (by decide +kernel) 1 t hget (.inr (by simp [hstate]))⟩

/-- A retry a second later stores signatures over another expiry. The call is
still built. -/
theorem quorum_disagrees : ∃ t,
    (sample.after (sampleFirstTick ++ [.authorizePayout (sampleAnswers 101 sampleSigners) 1 2])).tables.transactions.get? 1 =
      some t ∧ t.state = .authorized ∧ (sample.buildCall t).toOption.isSome ∧
        ¬ sample.QuorumAgrees t := by
  have hstored : ((sample.after (sampleFirstTick ++
      [.authorizePayout (sampleAnswers 101 sampleSigners) 1 2])).tables.transactions.get? 1).map
        (fun t => (t.state, (sample.buildCall t).toOption.isSome,
          decide (sample.verifier.Accepts t.authDigest t.signatures))) =
            some (.authorized, true, false) := by decide
  obtain ⟨t, hget, hfields⟩ := Option.map_eq_some_iff.mp hstored
  simp only [Prod.mk.injEq, decide_eq_false_iff_not] at hfields
  refine ⟨t, hget, hfields.1, hfields.2.1, ?_⟩
  rintro ⟨_, _, _, _, _, haccepts⟩
  exact hfields.2.2 haccepts

end Settler

end Service.Robinhood
