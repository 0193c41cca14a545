-- SUMMARY: The outputs of the vault are claimed by one flow at a time: splits, payouts and refunds, the invariant behind it, and where the refund of a deposit breaks it.
import ReserveBridge.Service.Ledger.VaultRows

/-!
# Who claims an output of the vault

Splits, payouts and refunds take outputs from one table. A split claims its
source by its own row, a payout and a refund mark the output. A payout looks for
both, and a refund for the mark only. So exclusivity holds along the runs whose
operations never take the source of a split that can still be broadcast.
-/

namespace Service
open Guard

/-! ## Inputs of payouts and refunds -/

namespace Request

/-- The inputs of the payout recorded for a request. -/
def payoutInputs (r : Request) : List Outpoint := (r.goldcoinPayout.map GoldcoinPayout.inputs).getD []

/-- The inputs of the refund recorded for a request. -/
def refundInputs (r : Request) : List Outpoint := (r.goldcoinRefund.map GoldcoinRefund.inputs).getD []

theorem mem_payoutInputs {r : Request} {o : Outpoint} :
    o ∈ r.payoutInputs ↔ ∃ p ∈ r.goldcoinPayout, o ∈ p.inputs := by
  cases h : r.goldcoinPayout <;> simp [payoutInputs, h]

theorem mem_refundInputs {r : Request} {o : Outpoint} :
    o ∈ r.refundInputs ↔ ∃ f ∈ r.goldcoinRefund, o ∈ f.inputs := by
  cases h : r.goldcoinRefund <;> simp [refundInputs, h]

end Request

namespace Transition

variable {op : Op} {id : ℕ} {r r' : Request} {δ : ℤ × ℤ}

/-- A payout keeps its inputs, and gets them when it is built. -/
theorem payoutInputs (h : Transition op id r r' δ) :
    r'.payoutInputs = r.payoutInputs ∨
      ∃ plan depth, op = .buildPayout id plan depth ∧ r'.payoutInputs = plan.inputs := by
  have rewritten : ∀ p p' : GoldcoinPayout, r.goldcoinPayout = some p →
      r'.goldcoinPayout = some p' → p'.inputs = p.inputs → r'.payoutInputs = r.payoutInputs := by
    intro p p' hp hp' hinputs
    simp [Request.payoutInputs, hp, hp', hinputs]
  cases h with
  | observed _ _ h₀ h₁ h =>
    have hrows := (h₀.rows.trans h₁.rows).trans h.rows
    exact .inl (by rw [Request.payoutInputs, Request.payoutInputs, hrows.goldcoinPayout])
  | solanaRefundBroadcast => exact .inl (by split_ifs <;> rfl)
  | releaseConfirmed => exact .inl (by split_ifs <;> rfl)
  | robinhoodPayoutSettled => exact .inl (by split_ifs <;> rfl)
  | payoutBuilt _ _ _ p _ _ hop =>
    obtain ⟨plan, depth, rfl, hinputs⟩ := hop
    exact .inr ⟨plan, depth, rfl, hinputs⟩
  | payoutSigned hp => exact .inl (rewritten _ _ hp rfl rfl)
  | payoutBroadcast hp => exact .inl (rewritten _ _ hp rfl rfl)
  | payoutConfirmations hp => exact .inl (rewritten _ _ hp rfl rfl)
  | payoutConfirmed _ _ hp => exact .inl (rewritten _ _ hp rfl rfl)
  | completionSubmitted hp => exact .inl (rewritten _ _ hp rfl rfl)
  | completionConfirmed =>
    refine .inl ?_
    cases hp : r.goldcoinPayout <;> simp [Request.payoutInputs, hp]
  | robinhoodSettledGoldcoin _ _ p hp => exact .inl (by simp [Request.payoutInputs, hp.2.2])
  | _ => exact .inl rfl

/-- A refund keeps its inputs, and gets them when it begins. -/
theorem refundInputs (h : Transition op id r r' δ) :
    r'.refundInputs = r.refundInputs ∨
      ∃ amount inputs note, op = .beginGoldcoinRefund id amount inputs note ∧
        r'.refundInputs = inputs := by
  have rewritten : ∀ f f' : GoldcoinRefund, r.goldcoinRefund = some f →
      r'.goldcoinRefund = some f' → f'.inputs = f.inputs → r'.refundInputs = r.refundInputs := by
    intro f f' hf hf' hinputs
    simp [Request.refundInputs, hf, hf', hinputs]
  cases h with
  | observed _ _ h₀ h₁ h =>
    have hrows := (h₀.rows.trans h₁.rows).trans h.rows
    exact .inl (by rw [Request.refundInputs, Request.refundInputs, hrows.goldcoinRefund])
  | solanaRefundBroadcast => exact .inl (by split_ifs <;> rfl)
  | releaseConfirmed => exact .inl (by split_ifs <;> rfl)
  | robinhoodPayoutSettled => exact .inl (by split_ifs <;> rfl)
  | goldcoinRefundBegun _ _ _ _ hop =>
    obtain ⟨amount, note, rfl⟩ := hop
    exact .inr ⟨amount, _, note, rfl, rfl⟩
  | goldcoinRefundSigned hf => exact .inl (rewritten _ _ hf rfl rfl)
  | goldcoinRefundBroadcast _ hf => exact .inl (rewritten _ _ hf rfl rfl)
  | goldcoinRefundConfirmed _ hf => exact .inl (rewritten _ _ hf rfl rfl)
  | _ => exact .inl rfl

end Transition

/-! ## Claims -/

/-- The flows that take outputs of the vault, by the row each is recorded in. -/
inductive Flow
  | split (id : ℕ) | payout (id : ℕ) | refund (id : ℕ)
  deriving DecidableEq, Repr

/-- The transaction of a split is signed, whether it is live or not. -/
def Vault.SignedSplit (v : Vault) (o : Outpoint) : Prop :=
  ∃ s ∈ v.splits.entries, s.2.source = o ∧ s.2.signed = true

instance (v : Vault) (o : Outpoint) : Decidable (v.SignedSplit o) :=
  inferInstanceAs (Decidable (∃ s ∈ v.splits.entries, _))

/-- The output is reserved for the request, or was. -/
def Vault.ReservedFor (v : Vault) (id : ℕ) (o : Outpoint) : Prop :=
  ∃ u, v.utxos.get? o = some u ∧ u.reservedBy = some id

namespace Ledger

/-- A flow claims an output: a live split its source, a payout what is reserved
for its request, a refund that is not final its inputs. -/
def Claims (l : Ledger) (o : Outpoint) : Flow → Prop
  | .split i => ∃ x ∈ l.vault.splits.get? i, x.source = o ∧ x.state.isLive = true
  | .payout id => (∃ u ∈ l.vault.utxos.get? o, u.state = .reserved ∧ u.reservedBy = some id) ∧
      ∃ r ∈ l.requests.get? id, r.direction.destinationIsGoldcoin
  | .refund id => ∃ r ∈ l.requests.get? id, ∃ f ∈ r.goldcoinRefund,
      f.state ≠ .refunded ∧ o ∈ f.inputs

/-- The transaction recorded by a flow spends an output. -/
def Spends (l : Ledger) (o : Outpoint) : Flow → Prop
  | .split i => ∃ x ∈ l.vault.splits.get? i, x.source = o ∧ x.signed = true
  | .payout id => ∃ r ∈ l.requests.get? id, o ∈ r.payoutInputs
  | .refund id => ∃ r ∈ l.requests.get? id, o ∈ r.refundInputs

instance (l : Ledger) (o : Outpoint) (c : Flow) : Decidable (l.Claims o c) :=
  match c with
  | .split _ => inferInstanceAs (Decidable (∃ x ∈ _, _))
  | .payout _ => inferInstanceAs (Decidable (_ ∧ _))
  | .refund _ => inferInstanceAs (Decidable (∃ r ∈ _, _))

instance (l : Ledger) (o : Outpoint) (c : Flow) : Decidable (l.Spends o c) :=
  match c with
  | .split _ => inferInstanceAs (Decidable (∃ x ∈ _, _))
  | .payout _ => inferInstanceAs (Decidable (∃ r ∈ _, _))
  | .refund _ => inferInstanceAs (Decidable (∃ r ∈ _, _))

/-- An output is claimed by one flow, and spent by no transaction of another. -/
structure Exclusive (l : Ledger) : Prop where
  claims : ∀ o c c', l.Claims o c → l.Claims o c' → c = c'
  spends : ∀ o c c', l.Spends o c → l.Claims o c' → c = c'

/-- What is spent by a transaction of this service stays spent. -/
def StaysSpent (l l' : Ledger) : Prop :=
  ∀ o u, l.vault.utxos.get? o = some u → u.state = .spent →
    ((∃ c, l.Spends o c) ∨ u.spentBy.isSome) →
      ∃ u', l'.vault.utxos.get? o = some u' ∧ u'.state = .spent

end Ledger

namespace Op

/-- The outputs an operation takes, or starts a split of. -/
def wanted : Op → List Outpoint
  | .recordSplitBuilt source _ _ _ => [source]
  | op => (op.takes.map Prod.snd).getD []

theorem mem_wanted {op : Op} {id : ℕ} {os : List Outpoint} {o : Outpoint}
    (hop : op.takes = some (id, os)) (ho : o ∈ os) : o ∈ op.wanted := by
  cases op <;> cases hop <;> exact ho

/-- The outputs a refund takes. -/
def refundWanted : Op → List Outpoint
  | .beginGoldcoinRefund _ _ inputs _ => inputs
  | _ => []

/-- The split that is abandoned with a txid. -/
def abandonedTx : Op → Option ℕ
  | .abandonSplit id (some _) => some id
  | _ => none

end Op

namespace Ledger

/-- The operation keeps away from the source of a split: a refund from a live
one, and all of them from one whose signed bytes may turn up again. The node
does not report the source of a signed split that was only inferred to be spent,
and a split is abandoned with a txid when its bytes are signed. -/
structure Uncontested (l : Ledger) (op : Op) : Prop where
  unsigned : ∀ o ∈ op.wanted, ¬ l.vault.SignedSplit o
  unclaimed : ∀ o ∈ op.refundWanted, ¬ l.vault.LiveSplitClaim o
  unreported : ∀ o ∈ op.reported, ∀ u ∈ l.vault.utxos.get? o,
    u.state = .spent → u.isMarked = false → ¬ l.vault.SignedSplit o
  signed : ∀ id ∈ op.abandonedTx, ∀ x ∈ l.vault.splits.get? id, x.signed = true

instance (l : Ledger) (op : Op) : Decidable (l.Uncontested op) :=
  decidable_of_iff ((∀ o ∈ op.wanted, ¬ l.vault.SignedSplit o) ∧
      (∀ o ∈ op.refundWanted, ¬ l.vault.LiveSplitClaim o) ∧
      (∀ o ∈ op.reported, ∀ u ∈ l.vault.utxos.get? o,
        u.state = .spent → u.isMarked = false → ¬ l.vault.SignedSplit o) ∧
      ∀ id ∈ op.abandonedTx, ∀ x ∈ l.vault.splits.get? id, x.signed = true)
    ⟨fun ⟨a, b, c, d⟩ => ⟨a, b, c, d⟩, fun ⟨a, b, c, d⟩ => ⟨a, b, c, d⟩⟩

/-! ## The invariant -/

/-- A split that can still be broadcast has a source that was never reserved,
and shares it with no other. What a payout or a refund lists is reserved for its
request. -/
structure Held (l : Ledger) : Prop where
  wf : l.Wf
  utxos : ∀ o u, l.vault.utxos.get? o = some u → u.Wf
  splits : ∀ i x, l.vault.splits.get? i = some x → x.Wf
  sources : ∀ i x, l.vault.splits.get? i = some x → x.isHolding = true →
    ∃ u, l.vault.utxos.get? x.source = some u ∧ u.reservedBy = none
  alone : ∀ i j x y, l.vault.splits.get? i = some x → l.vault.splits.get? j = some y →
    x.isHolding = true → y.isHolding = true → x.source = y.source → i = j
  payouts : ∀ id r, l.requests.get? id = some r → ∀ o ∈ r.payoutInputs, l.vault.ReservedFor id o
  refunds : ∀ id r, l.requests.get? id = some r → ∀ o ∈ r.refundInputs, l.vault.ReservedFor id o

end Ledger

/-- A split that can still be broadcast is seen at its source. -/
theorem Vault.claimed_of_isHolding {v : Vault} {i : ℕ} {x : Split} (hget : v.splits.get? i = some x)
    (h : x.isHolding = true) : v.LiveSplitClaim x.source ∨ v.SignedSplit x.source := by
  rw [Split.isHolding, Bool.or_eq_true] at h
  exact h.imp (fun hlive => ⟨_, Store.mem_of_get? hget, rfl, hlive⟩)
    fun hsigned => ⟨_, Store.mem_of_get? hget, rfl, hsigned⟩

namespace Ledger

variable {op : Op} {l l' : Ledger} {id : ℕ} {o : Outpoint} {os : List Outpoint}

/-- What an uncontested operation takes is the source of no split. -/
theorem Uncontested.took (hok : l.Uncontested op) (hop : op.takes = some (id, os))
    (hunclaimed : (∃ amount note, op = .beginGoldcoinRefund id amount os note) ∨
      ∀ o ∈ os, ¬ l.vault.LiveSplitClaim o) :
    ∀ o ∈ os, ¬ (l.vault.LiveSplitClaim o ∨ l.vault.SignedSplit o) := by
  intro o ho
  rw [not_or]
  refine ⟨?_, hok.unsigned o (Op.mem_wanted hop ho)⟩
  obtain ⟨amount, note, rfl⟩ | hunclaimed := hunclaimed
  · exact hok.unclaimed o ho
  · exact hunclaimed o ho

namespace Held

/-- The condition of the vault's change. -/
theorem change (hl : l.Held) (hok : l.Uncontested op) (h : l.step op = some l') :
    l.vault.Change op l'.vault := by
  refine vault_change hl.wf (fun i txid hop x hget => ?_) h
  subst hop
  exact hok.signed i rfl x hget

theorem reservedFor (hl : l.Held) (h : l.vault.Change op l'.vault) (ho : l.vault.ReservedFor id o) :
    l'.vault.ReservedFor id o := by
  obtain ⟨u, hget, hid⟩ := ho
  cases h with
  | kept _ utxos =>
    obtain ⟨u', hget', hkept⟩ := utxos.row hget
    exact ⟨u', hget', hkept.reservedBy.trans hid⟩
  | @took k os _ took =>
    refine ⟨u, ?_, hid⟩
    have hout : o ∉ os := by
      intro hmem
      obtain ⟨u₁, hget₁, hfree⟩ := took.free o hmem
      obtain rfl := Option.some.inj (hget.symm.trans hget₁)
      rw [(hl.utxos o u hget).reservedBy_eq_none hfree] at hid
      cases hid
    rw [took.rows, hget, Option.map_some, if_neg hout]
  | split _ _ _ _ utxos => exact ⟨u, utxos ▸ hget, hid⟩

/-- An operation reserves what it takes. -/
theorem reserved_of_takes (h : l.vault.Change op l'.vault) (hop : op.takes = some (id, os)) :
    ∀ o ∈ os, l'.vault.ReservedFor id o := by
  intro o ho
  cases h with
  | kept quiet =>
    rw [quiet] at hop
    cases hop
  | took hop' took =>
    obtain ⟨rfl, rfl⟩ := Prod.mk.inj (Option.some.inj (hop'.symm.trans hop))
    obtain ⟨u, hget, -⟩ := took.free o ho
    exact ⟨_, by rw [took.rows, hget, Option.map_some, if_pos ho], rfl⟩
  | split hop' =>
    rw [hop'] at hop
    cases hop

theorem utxos_step (hl : l.Held) (h : l.vault.Change op l'.vault) :
    ∀ o u, l'.vault.utxos.get? o = some u → u.Wf := by
  intro o u' hget'
  cases h with
  | kept _ utxos =>
    cases hget : l.vault.utxos.get? o with
    | none =>
      intro hsome
      rw [utxos.fresh hget hget'] at hsome
      cases hsome
    | some u =>
      obtain ⟨u₁, hget₁, hkept⟩ := utxos.row hget
      obtain rfl := Option.some.inj (hget₁.symm.trans hget')
      exact hkept.wf (hl.utxos o u hget)
  | took _ took =>
    rw [took.rows] at hget'
    obtain ⟨u, hget, rfl⟩ := Option.map_eq_some_iff.mp hget'
    split_ifs
    · exact fun _ => .inl rfl
    · exact hl.utxos o u hget
  | split _ _ _ _ utxos => exact hl.utxos o u' (utxos ▸ hget')

theorem splits_step (hl : l.Held) (h : l.vault.Change op l'.vault) :
    ∀ i x, l'.vault.splits.get? i = some x → x.Wf := by
  intro i x' hget'
  cases h with
  | kept _ _ splits =>
    obtain ⟨x, hget, hkept⟩ := splits i x' hget'
    exact hkept.wf (hl.splits i x hget)
  | took _ took => exact hl.splits i x' (took.splits ▸ hget')
  | split _ _ _ built _ splits =>
    rw [splits, Store.get?_push] at hget'
    split_ifs at hget'
    · obtain rfl := Option.some.inj hget'
      obtain ⟨-, hstate, -, htxid⟩ := built
      exact ⟨fun hne => absurd hstate hne, by simp [htxid]⟩
    · exact hl.splits i x' hget'

/-- The source of a split that holds it is taken from under it by nothing. -/
theorem sources_step (hl : l.Held) (hok : l.Uncontested op) (h : l.vault.Change op l'.vault) :
    ∀ i x, l'.vault.splits.get? i = some x → x.isHolding = true →
      ∃ u, l'.vault.utxos.get? x.source = some u ∧ u.reservedBy = none := by
  intro i x' hget' hholding
  cases h with
  | kept _ utxos splits =>
    obtain ⟨x, hget, hkept⟩ := splits i x' hget'
    obtain ⟨u, hu, hnone⟩ := hl.sources i x hget (hkept.holding (hl.splits i x hget) hholding)
    obtain ⟨u', hu', hukept⟩ := utxos.row hu
    exact ⟨u', hkept.source ▸ hu', hukept.reservedBy.trans hnone⟩
  | @took k os hop took unclaimed =>
    rw [took.splits] at hget'
    obtain ⟨u, hu, hnone⟩ := hl.sources i x' hget' hholding
    have hout : x'.source ∉ os := fun hmem =>
      hok.took hop unclaimed _ hmem (Vault.claimed_of_isHolding hget' hholding)
    exact ⟨u, by rw [took.rows, hu, Option.map_some, if_neg hout], hnone⟩
  | split _ free _ built utxos splits =>
    rw [splits, Store.get?_push] at hget'
    rw [utxos]
    split_ifs at hget'
    · obtain rfl := Option.some.inj hget'
      obtain ⟨u, hu, hstate⟩ := free
      rw [← built.1] at hu
      exact ⟨u, hu, (hl.utxos _ u hu).reservedBy_eq_none (.inl hstate)⟩
    · exact hl.sources i x' hget' hholding

/-- A new split is the only one of its source that can still be broadcast. -/
theorem alone_step (hl : l.Held) (hok : l.Uncontested op) (h : l.vault.Change op l'.vault) :
    ∀ i j x y, l'.vault.splits.get? i = some x → l'.vault.splits.get? j = some y →
      x.isHolding = true → y.isHolding = true → x.source = y.source → i = j := by
  intro i j x y hx hy hxh hyh hsource
  cases h with
  | kept _ _ splits =>
    obtain ⟨x₀, hx₀, hxkept⟩ := splits i x hx
    obtain ⟨y₀, hy₀, hykept⟩ := splits j y hy
    refine hl.alone i j x₀ y₀ hx₀ hy₀ (hxkept.holding (hl.splits i x₀ hx₀) hxh)
      (hykept.holding (hl.splits j y₀ hy₀) hyh) ?_
    rw [← hxkept.source, ← hykept.source, hsource]
  | took _ took =>
    rw [took.splits] at hx hy
    exact hl.alone i j x y hx hy hxh hyh hsource
  | @split source amount fee count z hop free unsplit built utxos splits =>
    subst hop
    -- an old split of the source would be known, or its bytes would
    have old : ∀ k w, l.vault.splits.get? k = some w → w.isHolding = true → w.source ≠ source := by
      rintro k w hw hwh rfl
      obtain ⟨e, he, hes, hlive⟩ | hsigned := Vault.claimed_of_isHolding hw hwh
      · refine unsplit ⟨e, he, hes, fun habandoned => ?_⟩
        rw [habandoned] at hlive
        cases hlive
      · exact hok.unsigned _ List.mem_cons_self hsigned
    rw [splits, Store.get?_push] at hx hy
    split_ifs at hx hy with hi hj hj
    · rw [hi, hj]
    · obtain rfl := Option.some.inj hx
      exact absurd (hsource.symm.trans built.1) (old j y hy hyh)
    · obtain rfl := Option.some.inj hy
      exact absurd (hsource.trans built.1) (old i x hx hxh)
    · exact hl.alone i j x y hx hy hxh hyh hsource

theorem payouts_step (hl : l.Held) (h : l.vault.Change op l'.vault) (heffect : Effect op l l') :
    ∀ id r, l'.requests.get? id = some r → ∀ o ∈ r.payoutInputs, l'.vault.ReservedFor id o := by
  refine heffect.forall_rows (P := fun id r => ∀ o ∈ r.payoutInputs, l'.vault.ReservedFor id o)
    (fun id r δ hi o ho => ?_) (fun id r r' δ ht hr o ho => ?_)
    fun id r hget o ho => hl.reservedFor h (hl.payouts id r hget o ho)
  · obtain ⟨p, hp, -⟩ := Request.mem_payoutInputs.mp ho
    rw [hi.newRow.goldcoinPayout] at hp
    cases hp
  · obtain hsame | ⟨plan, depth, rfl, hinputs⟩ := ht.payoutInputs
    · exact hr o (hsame ▸ ho)
    · exact reserved_of_takes h rfl o (hinputs ▸ ho)

theorem refunds_step (hl : l.Held) (h : l.vault.Change op l'.vault) (heffect : Effect op l l') :
    ∀ id r, l'.requests.get? id = some r → ∀ o ∈ r.refundInputs, l'.vault.ReservedFor id o := by
  refine heffect.forall_rows (P := fun id r => ∀ o ∈ r.refundInputs, l'.vault.ReservedFor id o)
    (fun id r δ hi o ho => ?_) (fun id r r' δ ht hr o ho => ?_)
    fun id r hget o ho => hl.reservedFor h (hl.refunds id r hget o ho)
  · obtain ⟨f, hf, -⟩ := Request.mem_refundInputs.mp ho
    rw [hi.newRow.goldcoinRefund] at hf
    cases hf
  · obtain hsame | ⟨amount, inputs, note, rfl, hinputs⟩ := ht.refundInputs
    · exact hr o (hsame ▸ ho)
    · exact reserved_of_takes h rfl o (hinputs ▸ ho)

theorem step (hl : l.Held) (hok : l.Uncontested op) (h : l.step op = some l') : l'.Held := by
  have heffect := effect_of_step hl.wf h
  have hchange := hl.change hok h
  exact {
    wf := hl.wf.step h
    utxos := hl.utxos_step hchange
    splits := hl.splits_step hchange
    sources := hl.sources_step hok hchange
    alone := hl.alone_step hok hchange
    payouts := hl.payouts_step hchange heffect
    refunds := hl.refunds_step hchange heffect }

/-- Which flow has an output, and what the output's row says about it. -/
theorem flow (hl : l.Held) {c : Flow} (h : l.Claims o c ∨ l.Spends o c) :
    match c with
    | .split i => ∃ x, l.vault.splits.get? i = some x ∧ x.isHolding = true ∧ x.source = o
    | .payout id => l.vault.ReservedFor id o ∧
        ∃ r, l.requests.get? id = some r ∧ r.direction.destinationIsGoldcoin
    | .refund id => l.vault.ReservedFor id o ∧
        ∃ r, l.requests.get? id = some r ∧ r.direction.sourceIsGoldcoin := by
  cases c with
  | split i =>
    obtain ⟨x, hget, hsource, hlive⟩ | ⟨x, hget, hsource, hsigned⟩ := h
    · exact ⟨x, hget, by simp [Split.isHolding, hlive], hsource⟩
    · exact ⟨x, hget, by simp [Split.isHolding, hsigned], hsource⟩
  | payout id =>
    obtain ⟨⟨u, hget, -, hid⟩, hrow⟩ | ⟨r, hget, ho⟩ := h
    · exact ⟨⟨u, hget, hid⟩, hrow⟩
    · obtain ⟨p, hp, -⟩ := Request.mem_payoutInputs.mp ho
      exact ⟨hl.payouts id r hget o ho, r, hget, (hl.wf id r hget).payout (by rw [hp]; rfl)⟩
  | refund id =>
    have spent : ∀ r, l.requests.get? id = some r → o ∈ r.refundInputs →
        l.vault.ReservedFor id o ∧
          ∃ r, l.requests.get? id = some r ∧ r.direction.sourceIsGoldcoin := by
      intro r hget ho
      obtain ⟨f, hf, -⟩ := Request.mem_refundInputs.mp ho
      exact ⟨hl.refunds id r hget o ho, r, hget, (hl.wf id r hget).refund (by rw [hf]; rfl)⟩
    obtain ⟨r, hget, f, hf, -, ho⟩ | ⟨r, hget, ho⟩ := h
    · exact spent r hget (Request.mem_refundInputs.mpr ⟨f, hf, ho⟩)
    · exact spent r hget ho

/-- One flow has an output. The row tells a split from the others and one request
from another, and no route both starts and ends on Goldcoin. -/
theorem unique (hl : l.Held) {c c' : Flow} (h : l.Claims o c ∨ l.Spends o c)
    (h' : l.Claims o c' ∨ l.Spends o c') : c = c' := by
  have free : ∀ i id, (∃ x, l.vault.splits.get? i = some x ∧ x.isHolding = true ∧ x.source = o) →
      l.vault.ReservedFor id o → False := by
    rintro i id ⟨x, hget, hholding, rfl⟩ ⟨u, hu, hid⟩
    obtain ⟨u₀, hu₀, hnone⟩ := hl.sources i x hget hholding
    obtain rfl := Option.some.inj (hu.symm.trans hu₀)
    rw [hid] at hnone
    cases hnone
  have same : ∀ id k, l.vault.ReservedFor id o → l.vault.ReservedFor k o → id = k := by
    rintro id k ⟨u, hu, hid⟩ ⟨u', hu', hk⟩
    obtain rfl := Option.some.inj (hu.symm.trans hu')
    exact Option.some.inj (hid.symm.trans hk)
  have route : ∀ d : Direction, d.destinationIsGoldcoin → ¬ d.sourceIsGoldcoin := by
    intro d
    cases d <;> decide
  have crossed : ∀ id k, l.vault.ReservedFor id o → l.vault.ReservedFor k o →
      (∃ r, l.requests.get? id = some r ∧ r.direction.destinationIsGoldcoin) →
      (∃ r, l.requests.get? k = some r ∧ r.direction.sourceIsGoldcoin) → False := by
    rintro id k hid hk ⟨r, hr, hdestination⟩ ⟨r', hr', hsource⟩
    obtain rfl := same id k hid hk
    obtain rfl := Option.some.inj (hr.symm.trans hr')
    exact route _ hdestination hsource
  have hflow := hl.flow h
  have hflow' := hl.flow h'
  cases c with
  | split i =>
    cases c' with
    | split j =>
      obtain ⟨x, hx, hxh, hxo⟩ := hflow
      obtain ⟨y, hy, hyh, hyo⟩ := hflow'
      rw [hl.alone i j x y hx hy hxh hyh (hxo.trans hyo.symm)]
    | payout k => exact (free i k hflow hflow'.1).elim
    | refund k => exact (free i k hflow hflow'.1).elim
  | payout id =>
    cases c' with
    | split j => exact (free j id hflow' hflow.1).elim
    | payout k => rw [same id k hflow.1 hflow'.1]
    | refund k => exact (crossed id k hflow.1 hflow'.1 hflow.2 hflow'.2).elim
  | refund id =>
    cases c' with
    | split j => exact (free j id hflow' hflow.1).elim
    | payout k => exact (crossed k id hflow'.1 hflow.1 hflow'.2 hflow.2).elim
    | refund k => rw [same id k hflow.1 hflow'.1]

theorem exclusive (hl : l.Held) : l.Exclusive where
  claims _ _ _ h h' := hl.unique (.inl h) (.inl h')
  spends _ _ _ h h' := hl.unique (.inr h) (.inl h')

/-- What a transaction spends is marked, unless it is the source of a signed
split. -/
theorem marked_of_spends (hl : l.Held) {c : Flow} {u : VaultUtxo} (h : l.Spends o c)
    (hget : l.vault.utxos.get? o = some u) : u.isMarked = true ∨ l.vault.SignedSplit o := by
  have reserved : ∀ id, l.vault.ReservedFor id o → u.isMarked = true := by
    rintro id ⟨u₁, hget₁, hid⟩
    obtain rfl := Option.some.inj (hget.symm.trans hget₁)
    simp [VaultUtxo.isMarked, hid]
  cases c with
  | split i =>
    obtain ⟨x, hx, hsource, hsigned⟩ := h
    exact .inr ⟨_, Store.mem_of_get? hx, hsource, hsigned⟩
  | payout id => exact .inl (reserved id (hl.flow (c := .payout id) (.inr h)).1)
  | refund id => exact .inl (reserved id (hl.flow (c := .refund id) (.inr h)).1)

theorem staysSpent (hl : l.Held) (hok : l.Uncontested op) (h : l.step op = some l') :
    l.StaysSpent l' := by
  intro o u hget hspent hby
  have hmarked : u.isMarked = true ∨ l.vault.SignedSplit o := by
    obtain ⟨c, hc⟩ | hsome := hby
    · exact hl.marked_of_spends hc hget
    · exact .inl (by simp [VaultUtxo.isMarked, hsome])
  cases hl.change hok h with
  | kept _ utxos =>
    obtain ⟨u', hget', hkept⟩ := utxos.row hget
    refine ⟨u', hget', hkept.spent hspent ?_⟩
    by_cases hm : u.isMarked = true
    · exact .inl hm
    -- an unmarked source of a signed split is not reported
    · exact .inr fun hreported =>
        hok.unreported o hreported u hget hspent (by simpa using hm) (hmarked.resolve_left hm)
  | @took k os _ took =>
    have hout : o ∉ os := by
      intro hmem
      obtain ⟨u₁, hget₁, hfree⟩ := took.free o hmem
      obtain rfl := Option.some.inj (hget.symm.trans hget₁)
      rw [hspent] at hfree
      obtain hfree | hfree := hfree <;> cases hfree
    exact ⟨u, by rw [took.rows, hget, Option.map_some, if_neg hout], hspent⟩
  | split _ _ _ _ utxos => exact ⟨u, utxos ▸ hget, hspent⟩

end Held

theorem held_empty : empty.Held where
  wf := wf_empty
  utxos _ _ h := by cases h
  splits _ _ h := by cases h
  sources _ _ h := by cases h
  alone _ _ _ _ h := by cases h
  payouts _ _ h := by cases h
  refunds _ _ h := by cases h

variable {ops : List Op}

/-- Along the uncontested runs, an output is claimed by one flow and spent by no
transaction of another, in every state reached, and no step frees what a
transaction of this service spends. -/
theorem vault_claims_exclusive
    (hok : ∀ e ∈ Run.history step empty ops, e.1.Uncontested e.2) :
    (after ops).Exclusive ∧
      ∀ e ∈ Run.history step empty ops, ∀ l', e.1.step e.2 = some l' → e.1.StaysSpent l' := by
  have hstep : ∀ (l : Ledger) op l', l.Held → l.Uncontested op → l.step op = some l' → l'.Held :=
    fun _ _ _ hl hok h => hl.step hok h
  constructor
  · exact (Run.invariant_of_history hstep held_empty ops hok).exclusive
  · intro e he l' h
    exact (Run.invariant_at_history hstep held_empty ops hok e he).1.staysSpent (hok e he) h

/-! ### Two signed transactions for one output -/

/-- A Goldcoin deposit of another amount than its request waits for its refund,
and the vault has one output. -/
def mismatchRun : List Op :=
  [.configureReserve .solanaReserve 5000 0,
    .createRequest .glcToSol sampleAmounts [5] none none 600 100,
    .recordGlcDepositObserved 1
      { txid := 40, vout := 0, amount := 900, blockHeight := 10, blockHash := 10, sourceWallets := [] }
      (fun _ _ _ _ _ => .error .conversion) 110,
    .syncVaultUtxos [{ outpoint := (50, 0), amount := 9000, confirmations := 100 }] 6]

/-- A split of the output is built and abandoned again, and then the refund takes
the output. -/
theorem vault_claims_exclusive_sample :
    (after (mismatchRun ++ [.recordSplitBuilt (50, 0) 9000 10 3, .abandonSplit 1 none,
        .beginGoldcoinRefund 1 900 [(50, 0)] "note"])).Claims (50, 0) (.refund 1) ∧
      (after (mismatchRun ++ [.recordSplitBuilt (50, 0) 9000 10 3, .abandonSplit 1 none,
        .beginGoldcoinRefund 1 900 [(50, 0)] "note"])).Exclusive := by
  exact ⟨by decide, (vault_claims_exclusive (by decide)).1⟩

/-- A split of the output is signed, and the refund of the deposit too. -/
def contestedRun : List Op :=
  mismatchRun ++ [.recordSplitBuilt (50, 0) 9000 10 3, .recordSplitSigned 1,
    .beginGoldcoinRefund 1 900 [(50, 0)] "note", .recordGoldcoinRefundSigned 1]

/-- Both claim the output, and both have a transaction that spends it. -/
theorem split_source_refunded :
    (after contestedRun).Claims (50, 0) (.split 1) ∧ (after contestedRun).Claims (50, 0) (.refund 1) ∧
      (after contestedRun).Spends (50, 0) (.split 1) ∧
        (after contestedRun).Spends (50, 0) (.refund 1) ∧ ¬ (after contestedRun).Exclusive :=
  ⟨by decide, by decide, by decide, by decide, fun h =>
    absurd (h.claims (50, 0) (.split 1) (.refund 1) (by decide) (by decide)) (by decide)⟩

end Ledger

end Service
