-- SUMMARY: What one call does to an operation row, and what no sequence of calls does: change a payload, a quorum or a nonce, replace signed bytes uncounted, step back, or leave finality.
import Mathlib.Logic.Relation
import ReserveBridge.Service.Robinhood.Operations

/-!
# Operation rows go forward

Nine functions write the rows, each with its own guards. Read back, they leave
a handful of edges between the states, and the constraints of the schema close
the one that would lead out of finality.
-/

namespace Service.Robinhood
open Guard

/-! ## What one call does -/

/-- What a call does to the row under the id it names. -/
inductive Edge (T : Tables) (id : ℕ) (t : Tx) : Op → Tx → Prop
  | authorized {signatures : List (ℕ × ℕ)} {now : ℤ} (hlength : signatures.length = 2)
    (hdistinct : (signatures.map Prod.fst).Nodup) (hnone : t.signatures = [])
    (hstate : t.state = .authorizing) :
    Edge T id t (.recordAuthorization id signatures now) (t.authorize signatures now)
  | allocated {submitter chainId : ℕ} {now next : ℤ} (hchain : t.chainId = asI64 chainId)
    (hnone : t.nonce = none) (hstate : t.state = .authorized)
    (hnext : next = T.nextNonce submitter t.chainId) :
    Edge T id t (.allocateNonce id submitter chainId now) (t.allocate submitter next now)
  | signed {envelope : String} {gasLimit : ℕ} {feeSummary : String} {rawTx : Bytes} {txHash : ℕ}
    {now : ℤ} (hnone : t.rawTx = none) (hstate : t.state = .authorized) :
    Edge T id t (.recordSigned id envelope gasLimit feeSummary rawTx txHash now)
      (t.sign envelope (asI64 gasLimit) feeSummary rawTx txHash now)
  | sent {now : ℤ} (hstate : t.state = .signed ∨ t.state = .broadcast) :
    Edge T id t (.recordBroadcast id now) (t.send now)
  | replaced {feeSummary : String} {rawTx : Bytes} {txHash : ℕ} {now : ℤ}
    (hstate : t.state = .broadcast) (hnonce : t.nonce.isSome) :
    Edge T id t (.recordReplacement id feeSummary rawTx txHash now)
      (t.replace feeSummary rawTx txHash now)
  | receiptMoved {success : Bool} {blockNumber blockHash : ℕ} {stored now : ℤ}
    (hstored : t.receiptBlockNumber = some stored) (hmoved : stored ≠ asI64 blockNumber) :
    Edge T id t (.recordReceipt id success blockNumber blockHash now)
      (t.park (.receiptMoved stored blockNumber) now)
  | mined {success : Bool} {blockNumber blockHash : ℕ} {now : ℤ}
    (hstate : t.state = .broadcast ∨ t.state = .included) :
    Edge T id t (.recordReceipt id success blockNumber blockHash now)
      (t.mined success (asI64 blockNumber) blockHash now)
  | confirmed {confirmations : ℤ} {required : ℕ} {now : ℤ}
    (hstate : t.state = .finalized ∨ t.state = .included ∧ confirmations < asI64 required) :
    Edge T id t (.updateConfirmations id confirmations required now) (t.confirm confirmations now)
  | finalized {confirmations : ℤ} {required : ℕ} {now : ℤ} (hstate : t.state = .included)
    (hdeep : asI64 required ≤ confirmations) :
    Edge T id t (.updateConfirmations id confirmations required now)
      ((t.confirm confirmations now).finalize now)
  | parked {reason : String} {now : ℤ} (hstate : t.state ≠ .finalized) :
    Edge T id t (.markManualReview id reason now) (t.park (.given reason) now)

/-- What a call does to the tables. -/
inductive Effect (T : Tables) : Op → Tables → Prop
  | unchanged {op : Op} : Effect T op T
  | observed {submitter chainId observed : ℕ} {now : ℤ} (hchain : 0 < asI64 chainId)
    {T' : Tables} (hrows : ∀ k, T'.transactions.get? k = T.transactions.get? k)
    (hsubmitters : ∀ s c, T'.observedNonce s c = if s = submitter ∧ c = asI64 chainId
      then some (max ((T.observedNonce s c).getD 0) (asI64 observed)) else T.observedNonce s c) :
    Effect T (.recordSubmitterNonce submitter chainId observed now) T'
  | inserted {new : NewTx} {now : ℤ} {T' : Tables} (hsubject : new.hasItsSubject)
    (hnone : T.existing new = none) (hadmits : T.transactions.Admits T.transactions.rows.nextKey (new.row now))
    (hrows : ∀ k, T'.transactions.get? k =
      if k = T.transactions.rows.nextKey then some (new.row now) else T.transactions.get? k)
    (hsubmitters : T'.submitters = T.submitters) :
    Effect T (.beginTx new now) T'
  | updated {op : Op} {id : ℕ} {t t' : Tx} {T' : Tables} (hget : T.transactions.get? id = some t)
    (hedge : Edge T id t op t') (hsets : T.Sets id t' T') : Effect T op T'
  | referenced {op : Op} {T' : Tables} (hrows : T'.transactions = T.transactions)
    (hsubmitters : T'.submitters = T.submitters) : Effect T op T'

namespace Tables

variable {T T' : Tables} {op : Op} {id : ℕ} {t t' : Tx} {now : ℤ}

theorem beginTx_effect {new : NewTx} {outcome : BeginTxOutcome}
    (h : T.beginTx new now = .ok (outcome, T')) : Effect T (.beginTx new now) T' := by
  simp only [beginTx, bind_eq_ok, require_eq_ok, exists_unit] at h
  obtain ⟨hsubject, h⟩ := h
  cases hexisting : T.existing new with
  | some e =>
    rw [hexisting, pure_eq_ok] at h
    obtain ⟨-, rfl⟩ := Prod.mk.inj h
    exact .unchanged
  | none =>
    rw [hexisting] at h
    simp only [bind_eq_ok, require_eq_ok, exists_unit, orFail_eq_ok, pure_eq_ok] at h
    obtain ⟨-, -, transactions, hinsert, h⟩ := h
    obtain ⟨-, rfl⟩ := Prod.mk.inj h
    obtain ⟨hadmits, hrows⟩ := Table.insert_eq_some hinsert
    exact .inserted hsubject hexisting hadmits hrows rfl

theorem recordAuthorization_effect {signatures : List (ℕ × ℕ)}
    (h : T.recordAuthorization id signatures now = .ok T') :
    Effect T (.recordAuthorization id signatures now) T' := by
  simp only [recordAuthorization, bind_eq_ok, require_eq_ok, exists_unit, tx_eq_ok] at h
  obtain ⟨hlength, hdistinct, t, hget, h⟩ := h
  by_cases hstored : t.signatures ≠ []
  · rw [if_pos hstored] at h
    simp only [bind_eq_ok, require_eq_ok, exists_unit, pure_eq_ok] at h
    exact h.2 ▸ .unchanged
  · rw [if_neg hstored] at h
    simp only [bind_eq_ok, require_eq_ok, exists_unit] at h
    exact .updated hget (.authorized hlength hdistinct (not_not.mp hstored) h.1)
      (setTx_eq_ok h.2 hget)

theorem recordSubmitterNonce_effect {submitter chainId observed n : ℕ}
    (h : T.recordSubmitterNonce submitter chainId observed now = .ok (n, T')) :
    Effect T (.recordSubmitterNonce submitter chainId observed now) T' := by
  simp only [recordSubmitterNonce, bind_eq_ok, require_eq_ok, exists_unit, pure_eq_ok] at h
  obtain ⟨hchain, h⟩ := h
  obtain ⟨-, rfl⟩ := Prod.mk.inj h
  refine .observed hchain (fun _ => rfl) fun s c => ?_
  simp only [observedNonce, Store.get?_upsert, Prod.mk.injEq]
  by_cases hkey : s = submitter ∧ c = asI64 chainId
  · rw [if_pos hkey, if_pos hkey, hkey.1, hkey.2]
    cases T.submitters.get? (submitter, asI64 chainId) <;> rfl
  · rw [if_neg hkey, if_neg hkey]

theorem allocateNonce_effect {submitter chainId n : ℕ}
    (h : T.allocateNonce id submitter chainId now = .ok (n, T')) :
    Effect T (.allocateNonce id submitter chainId now) T' := by
  simp only [allocateNonce, bind_eq_ok, require_eq_ok, exists_unit, tx_eq_ok] at h
  obtain ⟨t, hget, hchain, h⟩ := h
  cases hnonce : t.nonce with
  | some stored =>
    rw [hnonce] at h
    simp only [bind_eq_ok, require_eq_ok, exists_unit, pure_eq_ok] at h
    obtain ⟨-, h⟩ := h
    obtain ⟨-, rfl⟩ := Prod.mk.inj h
    exact .unchanged
  | none =>
    rw [hnonce] at h
    simp only [bind_eq_ok, require_eq_ok, exists_unit, pure_eq_ok] at h
    obtain ⟨hstate, T₁, hset, h⟩ := h
    obtain ⟨-, rfl⟩ := Prod.mk.inj h
    exact .updated hget (.allocated hchain hnonce hstate rfl) (setTx_eq_ok hset hget)

theorem recordSigned_effect {envelope : String} {gasLimit : ℕ} {feeSummary : String}
    {rawTx : Bytes} {txHash : ℕ}
    (h : T.recordSigned id envelope gasLimit feeSummary rawTx txHash now = .ok T') :
    Effect T (.recordSigned id envelope gasLimit feeSummary rawTx txHash now) T' := by
  simp only [recordSigned, bind_eq_ok, tx_eq_ok] at h
  obtain ⟨t, hget, h⟩ := h
  cases hraw : t.rawTx with
  | some stored =>
    rw [hraw] at h
    simp only [bind_eq_ok, require_eq_ok, exists_unit, pure_eq_ok] at h
    exact h.2 ▸ .unchanged
  | none =>
    rw [hraw] at h
    simp only [bind_eq_ok, require_eq_ok, exists_unit] at h
    exact .updated hget (.signed hraw h.1) (setTx_eq_ok h.2 hget)

theorem recordBroadcast_effect (h : T.recordBroadcast id now = .ok T') :
    Effect T (.recordBroadcast id now) T' := by
  simp only [recordBroadcast, bind_eq_ok, require_eq_ok, exists_unit, tx_eq_ok] at h
  obtain ⟨t, hget, hstate, h⟩ := h
  exact .updated hget (.sent hstate) (setTx_eq_ok h hget)

theorem recordReplacement_effect {feeSummary : String} {rawTx : Bytes} {txHash : ℕ}
    (h : T.recordReplacement id feeSummary rawTx txHash now = .ok T') :
    Effect T (.recordReplacement id feeSummary rawTx txHash now) T' := by
  simp only [recordReplacement, bind_eq_ok, require_eq_ok, exists_unit, tx_eq_ok] at h
  obtain ⟨t, hget, hstate, hnonce, h⟩ := h
  exact .updated hget (.replaced hstate hnonce) (setTx_eq_ok h hget)

theorem recordReceipt_effect {success : Bool} {blockNumber blockHash : ℕ}
    {state : RobinhoodTxState}
    (h : T.recordReceipt id success blockNumber blockHash now = .ok (state, T')) :
    Effect T (.recordReceipt id success blockNumber blockHash now) T' := by
  simp only [recordReceipt, bind_eq_ok, tx_eq_ok] at h
  obtain ⟨t, hget, h⟩ := h
  cases hmoved : t.receiptBlockNumber.filter fun stored => stored ≠ asI64 blockNumber with
  | some stored =>
    rw [hmoved] at h
    simp only [bind_eq_ok, pure_eq_ok] at h
    obtain ⟨T₁, hset, h⟩ := h
    obtain ⟨-, rfl⟩ := Prod.mk.inj h
    obtain ⟨hstored, hne⟩ := Option.filter_eq_some_iff.mp hmoved
    exact .updated hget (.receiptMoved hstored (of_decide_eq_true hne)) (setTx_eq_ok hset hget)
  | none =>
    rw [hmoved] at h
    dsimp only at h
    by_cases hdone : isTerminal t.state = true
    · rw [if_pos hdone, pure_eq_ok] at h
      obtain ⟨-, rfl⟩ := Prod.mk.inj h
      exact .unchanged
    · rw [if_neg hdone] at h
      simp only [bind_eq_ok, require_eq_ok, exists_unit, pure_eq_ok] at h
      obtain ⟨hstate, T₁, hset, h⟩ := h
      obtain ⟨-, rfl⟩ := Prod.mk.inj h
      exact .updated hget (.mined hstate) (setTx_eq_ok hset hget)

theorem updateConfirmations_effect {confirmations : ℤ} {required : ℕ} {promoted : Bool}
    (h : T.updateConfirmations id confirmations required now = .ok (promoted, T')) :
    Effect T (.updateConfirmations id confirmations required now) T' := by
  simp only [updateConfirmations, bind_eq_ok, tx_eq_ok] at h
  obtain ⟨t, hget, h⟩ := h
  by_cases hfinal : t.state = .finalized
  · rw [if_pos hfinal] at h
    simp only [bind_eq_ok, pure_eq_ok] at h
    obtain ⟨T₁, hset, h⟩ := h
    obtain ⟨-, rfl⟩ := Prod.mk.inj h
    exact .updated hget (.confirmed (.inl hfinal)) (setTx_eq_ok hset hget)
  · rw [if_neg hfinal] at h
    simp only [bind_eq_ok, require_eq_ok, exists_unit, pure_eq_ok, decide_eq_true_eq] at h
    obtain ⟨hstate, T₁, hset, h⟩ := h
    obtain ⟨-, rfl⟩ := Prod.mk.inj h
    split_ifs at hset with hdeep
    · exact .updated hget (.finalized hstate hdeep) (setTx_eq_ok hset hget)
    · exact .updated hget (.confirmed (.inr ⟨hstate, not_le.mp hdeep⟩)) (setTx_eq_ok hset hget)

theorem markManualReview_effect {reason : String} (h : T.markManualReview id reason now = .ok T') :
    Effect T (.markManualReview id reason now) T' := by
  simp only [markManualReview, bind_eq_ok, require_eq_ok, exists_unit, tx_eq_ok] at h
  obtain ⟨t, hget, hstate, h⟩ := h
  exact .updated hget (.parked hstate) (setTx_eq_ok h hget)

theorem effect_of_apply (h : T.apply op = .ok T') : Effect T op T' := by
  cases op with
  | beginTx new now =>
    simp only [apply, bind_eq_ok, pure_eq_ok] at h
    obtain ⟨⟨outcome, T₁⟩, h, rfl⟩ := h
    exact beginTx_effect h
  | recordAuthorization id signatures now => exact recordAuthorization_effect h
  | recordSubmitterNonce submitter chainId observed now =>
    simp only [apply, bind_eq_ok, pure_eq_ok] at h
    obtain ⟨⟨n, T₁⟩, h, rfl⟩ := h
    exact recordSubmitterNonce_effect h
  | allocateNonce id submitter chainId now =>
    simp only [apply, bind_eq_ok, pure_eq_ok] at h
    obtain ⟨⟨n, T₁⟩, h, rfl⟩ := h
    exact allocateNonce_effect h
  | recordSigned id envelope gasLimit feeSummary rawTx txHash now => exact recordSigned_effect h
  | recordBroadcast id now => exact recordBroadcast_effect h
  | recordReplacement id feeSummary rawTx txHash now => exact recordReplacement_effect h
  | recordReceipt id success blockNumber blockHash now =>
    simp only [apply, bind_eq_ok, pure_eq_ok] at h
    obtain ⟨⟨state, T₁⟩, h, rfl⟩ := h
    exact recordReceipt_effect h
  | updateConfirmations id confirmations required now =>
    simp only [apply, bind_eq_ok, pure_eq_ok] at h
    obtain ⟨⟨promoted, T₁⟩, h, rfl⟩ := h
    exact updateConfirmations_effect h
  | markManualReview id reason now => exact markManualReview_effect h
  | requestCreated id =>
    simp only [apply, pure_eq_ok] at h
    exact h ▸ .referenced rfl rfl
  | rebalanceCreated id =>
    simp only [apply, pure_eq_ok] at h
    exact h ▸ .referenced rfl rfl

theorem effect_of_step (h : T.step op = some T') : Effect T op T' :=
  effect_of_apply (toOption_eq_some.mp h)

end Tables

/-! ## The order of the states -/

/-- One step of an operation's way, or out of it. -/
inductive Next : RobinhoodTxState → RobinhoodTxState → Prop
  | authorized : Next .authorizing .authorized
  | signed : Next .authorized .signed
  | broadcast : Next .signed .broadcast
  | included : Next .broadcast .included
  | finalized : Next .included .finalized
  | reverted {s : RobinhoodTxState} (h : s = .broadcast ∨ s = .included) : Next s .reverted
  | manualReview {s : RobinhoodTxState} (h : s ≠ .finalized) : Next s .manualReview

/-- Forward along the way, by any number of steps. -/
def Forward : RobinhoodTxState → RobinhoodTxState → Prop := Relation.ReflTransGen Next

theorem Forward.eq_finalized {s : RobinhoodTxState} (h : Forward .finalized s) :
    s = .finalized := by
  refine (Relation.ReflTransGen.cases_head h).elim Eq.symm ?_
  rintro ⟨s', hnext, -⟩
  cases hnext with
  | reverted h => simp at h
  | manualReview h => exact absurd rfl h

/-- What is never undone about an operation. -/
structure Advances (t t' : Tx) : Prop where
  payload : t'.toPayload = t.toPayload
  signatures : t.signatures ≠ [] → t'.signatures = t.signatures
  nonce : t.nonce.isSome → t'.nonce = t.nonce ∧ t'.submitter = t.submitter
  signedBytes : t.rawTx.isSome → t'.rawTx.isSome ∧
    (t'.rawTx = t.rawTx ∧ t'.txHash = t.txHash ∨ t.replacementAttempts < t'.replacementAttempts)
  replacements : t.replacementAttempts ≤ t'.replacementAttempts
  state : Forward t.state t'.state

namespace Advances

variable {t t₁ t₂ : Tx}

theorem refl : Advances t t where
  payload := rfl
  signatures _ := rfl
  nonce _ := ⟨rfl, rfl⟩
  signedBytes h := ⟨h, .inl ⟨rfl, rfl⟩⟩
  replacements := le_rfl
  state := .refl

theorem trans (h₁ : Advances t t₁) (h₂ : Advances t₁ t₂) : Advances t t₂ where
  payload := h₂.payload.trans h₁.payload
  signatures h := by
    have hkept := h₁.signatures h
    rw [h₂.signatures (by rwa [hkept]), hkept]
  nonce h := by
    obtain ⟨hnonce, hsubmitter⟩ := h₁.nonce h
    obtain ⟨hnonce', hsubmitter'⟩ := h₂.nonce (by rwa [hnonce])
    exact ⟨hnonce'.trans hnonce, hsubmitter'.trans hsubmitter⟩
  signedBytes h := by
    obtain ⟨hsome, hbytes⟩ := h₁.signedBytes h
    obtain ⟨hsome', hbytes'⟩ := h₂.signedBytes hsome
    refine ⟨hsome', ?_⟩
    rcases hbytes with hsame | hcounted
    · rcases hbytes' with hsame' | hcounted'
      · exact .inl ⟨hsame'.1.trans hsame.1, hsame'.2.trans hsame.2⟩
      · exact .inr (h₁.replacements.trans_lt hcounted')
    · exact .inr (hcounted.trans_le h₂.replacements)
  replacements := h₁.replacements.trans h₂.replacements
  state := h₁.state.trans h₂.state

end Advances

/-! ## One call goes forward -/

section Step

variable {T T' : Tables} {op : Op} {id : ℕ} {t t' : Tx}

/-- The schema does not let a finalized row be parked. -/
theorem Tx.Checks.not_finalized {reason : FailureReason} {now : ℤ} (h : t.Checks)
    (hparked : (t.park reason now).Checks) : t.state ≠ .finalized :=
  h.finalizedAt_none.mp (hparked.finalizedAt_none.mpr (by simp [Tx.park]))

theorem Edge.advances (h : Edge T id t op t') (ht : t.Checks) (ht' : t'.Checks) :
    Advances t t' := by
  -- most updates touch neither payload, quorum, nonce nor bytes
  have hstays {u : Tx} (hpayload : u.toPayload = t.toPayload)
      (hsignatures : u.signatures = t.signatures)
      (hnonce : u.nonce = t.nonce ∧ u.submitter = t.submitter)
      (hbytes : u.rawTx = t.rawTx ∧ u.txHash = t.txHash)
      (hreplacements : u.replacementAttempts = t.replacementAttempts)
      (hstate : Forward t.state u.state) : Advances t u :=
    ⟨hpayload, fun _ => hsignatures, fun _ => hnonce,
      fun hsome => ⟨hbytes.1.symm ▸ hsome, .inl hbytes⟩, hreplacements.ge, hstate⟩
  cases h with
  | authorized hlength hdistinct hnone hstate =>
    refine ⟨rfl, fun hsome => absurd hnone hsome, fun _ => ⟨rfl, rfl⟩,
      fun hsome => ⟨hsome, .inl ⟨rfl, rfl⟩⟩, le_rfl, ?_⟩
    rw [hstate]
    exact .single .authorized
  | allocated hchain hnone hstate hnext =>
    refine ⟨rfl, fun _ => rfl, fun hsome => ?_, fun hsome => ⟨hsome, .inl ⟨rfl, rfl⟩⟩, le_rfl, .refl⟩
    rw [hnone] at hsome
    cases hsome
  | signed hnone hstate =>
    refine ⟨rfl, fun _ => rfl, fun _ => ⟨rfl, rfl⟩, fun hsome => ?_, le_rfl, ?_⟩
    · rw [hnone] at hsome
      cases hsome
    · rw [hstate]
      exact .single .signed
  | sent hstate =>
    refine hstays rfl rfl ⟨rfl, rfl⟩ ⟨rfl, rfl⟩ rfl ?_
    rcases hstate with hstate | hstate
    · rw [hstate]
      exact .single .broadcast
    · rw [hstate]
      exact .refl
  | replaced hstate hnonce =>
    have hcounted : t.replacementAttempts < t.replacementAttempts + 1 := by omega
    exact ⟨rfl, fun _ => rfl, fun _ => ⟨rfl, rfl⟩, fun _ => ⟨rfl, .inr hcounted⟩, hcounted.le, .refl⟩
  | receiptMoved hstored hmoved =>
    exact hstays rfl rfl ⟨rfl, rfl⟩ ⟨rfl, rfl⟩ rfl (.single (.manualReview (ht.not_finalized ht')))
  | @mined success _ _ _ hstate =>
    refine hstays rfl rfl ⟨rfl, rfl⟩ ⟨rfl, rfl⟩ rfl ?_
    cases success with
    | false => exact .single (.reverted hstate)
    | true =>
      rcases hstate with hstate | hstate
      · rw [hstate]
        exact .single .included
      · rw [hstate]
        exact .refl
  | confirmed hstate => exact hstays rfl rfl ⟨rfl, rfl⟩ ⟨rfl, rfl⟩ rfl .refl
  | finalized hstate hdeep =>
    refine hstays rfl rfl ⟨rfl, rfl⟩ ⟨rfl, rfl⟩ rfl ?_
    rw [hstate]
    exact .single .finalized
  | parked hstate => exact hstays rfl rfl ⟨rfl, rfl⟩ ⟨rfl, rfl⟩ rfl (.single (.manualReview hstate))

/-- Only a replacement changes bytes that were signed. -/
theorem Edge.replaced_of_ne (h : Edge T id t op t') (hsome : t.rawTx.isSome)
    (hne : t'.rawTx ≠ t.rawTx) : t.state = .broadcast ∧ t'.state = .broadcast ∧
      t'.replacementAttempts = t.replacementAttempts + 1 := by
  cases h with
  | signed hnone hstate =>
    rw [hnone] at hsome
    cases hsome
  | replaced hstate hnonce => exact ⟨hstate, hstate, rfl⟩
  | _ => exact absurd rfl hne

/-- The row under `id` before a call, and after it. -/
theorem Effect.cases_row (h : Effect T op T') (hget : T.transactions.get? id = some t) :
    T'.transactions.get? id = some t ∨
      ∃ t', T'.transactions.get? id = some t' ∧ Edge T id t op t' ∧ t'.Checks := by
  cases h with
  | unchanged => exact .inl hget
  | observed hchain hrows hsubmitters => exact .inl (by rw [hrows, hget])
  | inserted hsubject hnone hadmits hrows hsubmitters =>
    refine .inl ?_
    rw [hrows, if_neg, hget]
    rintro rfl
    rw [Table.get?_nextKey] at hget
    cases hget
  | @updated op id' t₀ t' T' hget' hedge hsets =>
    by_cases hid : id = id'
    · subst hid
      obtain rfl := Option.some.inj (hget'.symm.trans hget)
      exact .inr ⟨t', by rw [hsets.get?, if_pos rfl], hedge, hsets.admits.1⟩
    · exact .inl (by rw [hsets.get?, if_neg hid, hget])
  | referenced hrows hsubmitters => exact .inl (by rw [hrows, hget])

/-- The row a call writes. -/
def Op.row : Op → Option ℕ
  | .recordAuthorization id .. | .allocateNonce id .. | .recordSigned id ..
  | .recordBroadcast id _ | .recordReplacement id .. | .recordReceipt id ..
  | .updateConfirmations id .. | .markManualReview id .. => some id
  | .beginTx .. | .recordSubmitterNonce .. | .requestCreated _ | .rebalanceCreated _ => none

theorem Edge.row_eq (h : Edge T id t op t') : op.row = some id := by
  cases h <;> rfl

/-- A call on a row leaves the others alone. -/
theorem Effect.frame (h : Effect T op T') (hrow : op.row = some id) {k : ℕ} (hk : k ≠ id) :
    T'.transactions.get? k = T.transactions.get? k := by
  cases h with
  | unchanged => rfl
  | observed hchain hrows hsubmitters => exact hrows k
  | inserted hsubject hnone hadmits hrows hsubmitters => cases hrow
  | updated hget hedge hsets =>
    obtain rfl := Option.some.inj (hedge.row_eq.symm.trans hrow)
    rw [hsets.get?, if_neg hk]
  | referenced hrows hsubmitters => rw [hrows]

/-- A call on no row leaves them alone, unless it is the creation of one. -/
theorem Effect.rows (h : Effect T op T') (hrow : op.row = none)
    (hnew : ∀ new now, op ≠ .beginTx new now) (k : ℕ) :
    T'.transactions.get? k = T.transactions.get? k := by
  cases h with
  | unchanged => rfl
  | observed hchain hrows hsubmitters => exact hrows k
  | inserted => exact absurd rfl (hnew _ _)
  | updated hget hedge hsets => cases hedge.row_eq.symm.trans hrow
  | referenced hrows hsubmitters => rw [hrows]

/-- Where a row after a call comes from. -/
theorem Effect.origin (h : Effect T op T') (hget : T'.transactions.get? id = some t') :
    T.transactions.get? id = some t' ∨
      (∃ t, T.transactions.get? id = some t ∧ Edge T id t op t') ∨
      ∃ new now, op = .beginTx new now ∧ t' = new.row now ∧ t'.Checks := by
  cases h with
  | unchanged => exact .inl hget
  | observed hchain hrows hsubmitters => exact .inl (by rw [← hrows, hget])
  | @inserted new now T' hsubject hnone hadmits hrows hsubmitters =>
    rw [hrows] at hget
    split_ifs at hget
    · obtain rfl := Option.some.inj hget
      exact .inr (.inr ⟨new, now, rfl, rfl, hadmits.1⟩)
    · exact .inl hget
  | @updated op id' t₀ t₁ T' hget' hedge hsets =>
    rw [hsets.get?] at hget
    split_ifs at hget with hid
    · subst hid
      obtain rfl := Option.some.inj hget
      exact .inr (.inl ⟨t₀, hget', hedge⟩)
    · exact .inl hget
  | referenced hrows hsubmitters => exact .inl (by rw [← hrows, hget])

theorem Effect.advances (h : Effect T op T') (hget : T.transactions.get? id = some t) :
    ∃ t', T'.transactions.get? id = some t' ∧ Advances t t' := by
  rcases h.cases_row hget with hsame | ⟨t', hget', hedge, hchecks⟩
  · exact ⟨t, hsame, .refl⟩
  · exact ⟨t', hget', hedge.advances (T.transactions.checked id t hget) hchecks⟩

end Step

namespace Tables

variable {T : Tables} {id : ℕ} {t t' : Tx}

/-! ## Every run goes forward -/

theorem run_append {ops ops' : List Op} : T.run (ops ++ ops') = (T.run ops).run ops' :=
  Run.final_append

/-- A row stays, and advances. -/
theorem advances_of_run (hget : T.transactions.get? id = some t) (ops : List Op) :
    ∃ t', (T.run ops).transactions.get? id = some t' ∧ Advances t t' := by
  let Kept (T : Tables) : Prop := ∃ t', T.transactions.get? id = some t' ∧ Advances t t'
  have hkept : ∀ T op T', Kept T → Tables.step T op = some T' → Kept T' := by
    rintro T op T' ⟨t₁, hget₁, hadvances⟩ hstep
    obtain ⟨t₂, hget₂, hadvances₂⟩ := (effect_of_step hstep).advances hget₁
    exact ⟨t₂, hget₂, hadvances.trans hadvances₂⟩
  exact Run.invariant hkept ⟨t, hget, .refl⟩ ops

/-- There is one operation of a kind for a subject. -/
theorem eq_of_subject {id₁ id₂ : ℕ} {t₁ t₂ : Tx} (h₁ : T.transactions.get? id₁ = some t₁)
    (h₂ : T.transactions.get? id₂ = some t₂) (hkind : t₁.kind = t₂.kind)
    (hrequest : t₁.requestId = t₂.requestId)
    (hrebalance : t₁.rebalanceRequestId = t₂.rebalanceRequestId) : id₁ = id₂ := by
  have hchecks := (T.transactions.checked id₁ t₁ h₁).payload
  by_cases hwithdraw : t₁.kind = .treasuryWithdraw
  · obtain ⟨r, hr⟩ := Option.isSome_iff_exists.mp (hchecks.rebalanceRequestId_isSome.mp hwithdraw)
    refine T.transactions.unique id₁ id₂ t₁ t₂ (.rebalance r) h₁ h₂ ?_ ?_
    · simp [Tx.index, hr]
    · simp [Tx.index, ← hrebalance, hr]
  · obtain ⟨r, hr⟩ := Option.ne_none_iff_exists'.mp (mt hchecks.requestId_none.mpr hwithdraw)
    refine T.transactions.unique id₁ id₂ t₁ t₂ (.operation t₁.kind r) h₁ h₂ ?_ ?_
    · simp [Tx.index, hr]
    · simp [Tx.index, ← hrequest, hr, hkind]

/-- Over every sequence of calls there is one row for a kind and a subject, the
rows advance and stay finalized, and what a call does to signed bytes is to
replace them while they are broadcast, counted. -/
theorem operations_forward (T : Tables) (ops : List Op) :
    (∀ id₁ id₂ t₁ t₂, (T.run ops).transactions.get? id₁ = some t₁ →
      (T.run ops).transactions.get? id₂ = some t₂ → t₁.kind = t₂.kind →
      t₁.requestId = t₂.requestId → t₁.rebalanceRequestId = t₂.rebalanceRequestId → id₁ = id₂) ∧
    (∀ pre post, ops = pre ++ post → ∀ id t, (T.run pre).transactions.get? id = some t →
      ∃ t', (T.run ops).transactions.get? id = some t' ∧ Advances t t' ∧
        (t.state = .finalized → t'.state = .finalized)) ∧
    ∀ pre op post, ops = pre ++ op :: post → ∀ id t t',
      (T.run pre).transactions.get? id = some t →
      (T.run (pre ++ [op])).transactions.get? id = some t' → t.rawTx.isSome →
      t'.rawTx ≠ t.rawTx → t.state = .broadcast ∧ t'.state = .broadcast ∧
        t'.replacementAttempts = t.replacementAttempts + 1 := by
  refine ⟨fun _ _ _ _ => eq_of_subject, ?_, ?_⟩
  · rintro pre post rfl id t hget
    obtain ⟨t', hget', hadvances⟩ := advances_of_run hget post
    refine ⟨t', by rwa [run_append], hadvances, fun hfinal => ?_⟩
    have hforward := hadvances.state
    rw [hfinal] at hforward
    exact hforward.eq_finalized
  · rintro pre op post rfl id t t' hget hget' hsome hne
    rw [run_append] at hget'
    cases hstep : (T.run pre).step op with
    | none =>
      have hsame : (T.run pre).run [op] = T.run pre := Run.advance_of_none hstep
      rw [hsame, hget] at hget'
      exact absurd (congrArg Tx.rawTx (Option.some.inj hget')).symm hne
    | some T' =>
      have hnext : (T.run pre).run [op] = T' := Run.advance_of_some hstep
      rw [hnext] at hget'
      rcases (effect_of_step hstep).cases_row hget with hsame | ⟨t₁, hget₁, hedge, -⟩
      · rw [hsame] at hget'
        exact absurd (congrArg Tx.rawTx (Option.some.inj hget')).symm hne
      · obtain rfl := Option.some.inj (hget₁.symm.trans hget')
        exact hedge.replaced_of_ne hsome hne

end Tables

end Service.Robinhood
