-- SUMMARY: Every obligation below the cursor is folded once: what a request keeps of its deposit, which operations add a fold, and the invariant of the indexer over runs with failures and crashes.
import ReserveBridge.Service.SolanaIndexer

/-!
# Folds of Solana deposits

The folds are commits of their own, and the cursor is one more. The invariant is
that all indices below the cursor are folded, and that during a tick all indices
below the count that was read are folded or left to fold.
-/

namespace Service
open Guard

/-! ## What a request keeps -/

/-- The columns a fold writes and nothing else does. -/
structure SameDeposit (r r' : Request) : Prop where
  direction : r'.direction = r.direction
  index : r'.sourceObligationIndex = r.sourceObligationIndex
  requester : r'.requester = r.requester
  recipient : r'.recipient = r.recipient
  gross : r'.gross = r.gross
  feeBps : r'.feeBps = r.feeBps
  feeAmount : r'.feeAmount = r.feeAmount
  netAmount : r'.netAmount = r.netAmount
  netDestination : r'.netDestination = r.netDestination

theorem SameDeposit.refl (r : Request) : SameDeposit r r := by constructor <;> rfl

theorem SameDeposit.trans {r₁ r₂ r₃ : Request} (h : SameDeposit r₁ r₂) (h' : SameDeposit r₂ r₃) :
    SameDeposit r₁ r₃ where
  direction := h'.direction.trans h.direction
  index := h'.index.trans h.index
  requester := h'.requester.trans h.requester
  recipient := h'.recipient.trans h.recipient
  gross := h'.gross.trans h.gross
  feeBps := h'.feeBps.trans h.feeBps
  feeAmount := h'.feeAmount.trans h.feeAmount
  netAmount := h'.netAmount.trans h.netAmount
  netDestination := h'.netDestination.trans h.netDestination

/-- The request of a Solana obligation. -/
def Request.FoldOf (r : Request) (index : ℕ) : Prop :=
  r.direction.sourceIsSolana ∧ r.sourceObligationIndex = some index

variable {op : Op} {l l' : Ledger} {id i : ℕ} {r r' : Request} {δ : ℤ × ℤ}

theorem SameDeposit.foldOf (h : SameDeposit r r') : r'.FoldOf i ↔ r.FoldOf i := by
  rw [Request.FoldOf, Request.FoldOf, h.direction, h.index]

/-- Only a Goldcoin deposit is priced again after its request was made. -/
theorem Transition.sameDeposit (h : Transition op id r r' δ) (hsource : r.direction.sourceIsSolana) :
    SameDeposit r r' := by
  cases h with
  | observed hop source h₀ h₁ h =>
    rw [Direction.sourceIsGoldcoin, hsource] at source
    cases source
  | solanaRefundBroadcast => split_ifs <;> constructor <;> rfl
  | releaseConfirmed => split_ifs <;> constructor <;> rfl
  | robinhoodPayoutSettled => split_ifs <;> constructor <;> rfl
  | _ => constructor <;> rfl

namespace Ledger

def Folded (l : Ledger) (index : ℕ) : Prop := ∃ id r, l.requests.get? id = some r ∧ r.FoldOf index

/-- The requests of Solana deposits stay, and a new one is one of `new`. -/
structure KeepsFolds (l l' : Ledger) (new : ℕ → Request → Prop) : Prop where
  kept : ∀ id r, l.requests.get? id = some r → r.direction.sourceIsSolana →
    ∃ r', l'.requests.get? id = some r' ∧ SameDeposit r r'
  origin : ∀ id r' i, l'.requests.get? id = some r' → r'.FoldOf i →
    (∃ r, l.requests.get? id = some r ∧ SameDeposit r r') ∨ new id r'

theorem KeepsFolds.refl {new : ℕ → Request → Prop} : l.KeepsFolds l new where
  kept _ r hget _ := ⟨r, hget, .refl r⟩
  origin _ r' _ hget _ := .inl ⟨r', hget, .refl r'⟩

end Ledger

namespace Effect

theorem kept (h : Effect op l l') (hget : l.requests.get? id = some r)
    (hsource : r.direction.sourceIsSolana) :
    ∃ r', l'.requests.get? id = some r' ∧ SameDeposit r r' := by
  obtain ⟨r', hget', hmoves⟩ := h.row hget
  refine ⟨r', hget', ?_⟩
  clear hget'
  induction hmoves with
  | refl => exact .refl r
  | tail _ hstep ih =>
    obtain ⟨δ, hstep⟩ := hstep
    exact ih.trans (hstep.sameDeposit (ih.direction ▸ hsource))

/-- An operation that is no fold makes no request of a Solana obligation. -/
theorem origin (h : Effect op l l') (hop : op.foldsSolana = false)
    (hget : l'.requests.get? id = some r') (hfold : r'.FoldOf i) :
    ∃ r, l.requests.get? id = some r ∧ SameDeposit r r' := by
  induction h generalizing r' with
  | idle requests => exact ⟨r', requests ▸ hget, .refl r'⟩
  | configured requests => exact ⟨r', requests ▸ hget, .refl r'⟩
  | inserted h row requests books vault solana =>
    rw [requests, Store.get?_push] at hget
    split_ifs at hget with hk
    · obtain rfl := Option.some.inj hget
      have hfolds := solana hfold.1 (by rw [hfold.2]; rfl)
      rw [hop] at hfolds
      cases hfolds
    · exact ⟨r', hget, .refl r'⟩
  | @moved l l' k r₁ r₂ δ found h requests =>
    rw [requests, Store.get?_modify] at hget
    split_ifs at hget with hk
    · subst hk
      rw [found] at hget
      obtain rfl := Option.some.inj hget
      exact ⟨r₁, found, h.sameDeposit (h.direction_eq ▸ hfold.1)⟩
    · exact ⟨r', hget, .refl r'⟩
  | seq _ _ _ ih₁ ih =>
    obtain ⟨r₂, hget₂, hsame₂⟩ := ih hget hfold
    obtain ⟨r₁, hget₁, hsame₁⟩ := ih₁ hget₂ (hsame₂.foldOf.mp hfold)
    exact ⟨r₁, hget₁, hsame₁.trans hsame₂⟩

end Effect

namespace Ledger

theorem keepsFolds_of_step (hwf : l.Wf) (hop : op.foldsSolana = false) (h : l.step op = some l') :
    l.KeepsFolds l' fun _ _ => False where
  kept _ _ hget hsource := (effect_of_step hwf h).kept hget hsource
  origin _ _ _ hget hfold := .inl ((effect_of_step hwf h).origin hop hget hfold)

/-! ## The folds -/

theorem folded_iff : l.Folded i ↔ l.SolanaObligationFolded i := by
  constructor
  · rintro ⟨id, r, hget, hfold⟩
    exact ⟨(id, r), Store.mem_of_get? hget, hfold⟩
  · rintro ⟨e, hmem, hfold⟩
    exact ⟨e.1, e.2, Store.get?_of_mem hmem, hfold⟩

/-- A fold leaves the ledger where the index is folded, and adds its request where
it is not. -/
structure Folds (d : Direction) (index : ℕ) (l l' : Ledger) : Prop where
  wf : l'.Wf
  folded : l'.Folded index
  keeps : l.KeepsFolds l' fun id r => id = l.requests.nextKey ∧ r.direction = d ∧
    r.sourceObligationIndex = some index ∧ ¬ l.Folded index

theorem folds_of_push {d : Direction} {index : ℕ} (hwf : l'.Wf) (hd : d.sourceIsSolana)
    (hfree : ¬ l.Folded index) (hdirection : r.direction = d)
    (hindex : r.sourceObligationIndex = some index) (hrows : l'.requests = l.requests.push r) :
    Folds d index l l' where
  wf := hwf
  folded := ⟨l.requests.nextKey, r, by rw [hrows, Store.get?_push, if_pos rfl], hdirection ▸ hd, hindex⟩
  keeps := {
    kept := fun id r hget _ =>
      ⟨r, by rw [hrows, Store.get?_push_of_some hget], .refl r⟩
    origin := fun id r' i hget _ => by
      rw [hrows, Store.get?_push] at hget
      split_ifs at hget with hk
      · obtain rfl := Option.some.inj hget
        exact .inr ⟨hk, hdirection, hindex, hfree⟩
      · exact .inl ⟨r', hget, .refl r'⟩ }

theorem folds_of_foldDeposit {d : Direction} {a : RequestAmounts} {quoted : Bool}
    {src : DepositSource} {destination : Option Bytes} {recipient : Bytes} {routeOpen : Bool}
    {refusal : Option FoldRefusal} {now : ℤ} (hwf : l'.Wf) (hd : d.sourceIsSolana)
    (hfree : ¬ l.SolanaObligationFolded src.obligationIndex)
    (h : l.foldDeposit d a quoted src destination recipient routeOpen refusal now = .ok l') :
    Folds d src.obligationIndex l l' := by
  obtain ⟨r, v, -, hdirection, -, -, -, -, -, -, -, -, hindex, -, hrow⟩ := foldDeposit_cases h
  rw [← folded_iff] at hfree
  obtain ⟨-, -, -, rfl⟩ | ⟨-, -, rfl⟩ := hrow
  · exact folds_of_push hwf hd hfree hdirection hindex rfl
  · exact folds_of_push hwf hd hfree hdirection hindex rfl

theorem folds_of_foldSolDeposit {index : ℕ} {a : RequestAmounts} {requester recipient : Bytes}
    {refusal : Option FoldRefusal} {now : ℤ} (hwf : l.Wf)
    (h : l.foldSolDeposit index a requester recipient refusal now = .ok l') :
    Folds .solToGlc index l l' := by
  have hstep : l.step (.foldSolDeposit index a requester recipient refusal now) = some l' :=
    toOption_eq_some.mpr h
  simp only [foldSolDeposit, bind_eq_ok] at h
  obtain ⟨quoted, -, h⟩ := h
  split_ifs at h with hfolded
  · obtain rfl := pure_eq_ok.mp h
    exact ⟨hwf, folded_iff.mpr hfolded, .refl⟩
  · exact folds_of_foldDeposit (hwf.step hstep) (by decide) hfolded h

theorem folds_of_foldSolDepositToRobinhood {index : ℕ} {a : RequestAmounts} {requester : Bytes}
    {evm : Option Bytes} {raw : Bytes} {routeOpen : Bool} {refusal : Option FoldRefusal} {now : ℤ}
    (hwf : l.Wf)
    (h : l.foldSolDepositToRobinhood index a requester evm raw routeOpen refusal now = .ok l') :
    Folds .solToRhn index l l' := by
  have hstep : l.step (.foldSolDepositToRobinhood index a requester evm raw routeOpen refusal now) =
      some l' := toOption_eq_some.mpr h
  simp only [foldSolDepositToRobinhood, bind_eq_ok, require_eq_ok, exists_unit] at h
  obtain ⟨-, quoted, -, h⟩ := h
  split_ifs at h with hfolded
  · obtain rfl := pure_eq_ok.mp h
    exact ⟨hwf, folded_iff.mpr hfolded, .refl⟩
  · exact folds_of_foldDeposit (hwf.step hstep) (by decide) hfolded h

end Ledger

/-! ## What a tick reads -/

/-- The data of the account of an obligation, whose recipient is the text that was
deposited under its index. -/
def ObligationData (text : ℕ → Bytes) (index : ℕ) (data : Bytes) : Prop :=
  ∃ (o : Solana.WithdrawalObligation) (discriminator : Vector UInt8 8) (tail : Bytes),
    data = SolanaAccounts.accountData discriminator (SolanaAccounts.withdrawalObligationBytes o) tail ∧
    o.index.toNat = index ∧ o.glcAddress.toList.take o.glcAddressLen.toNat = text index

/-- One answer for each account that is asked for, with the account's data where it
exists. -/
def SolanaTickReads.Truthful (text : ℕ → Bytes) (r : SolanaTickReads) : Prop :=
  ∀ indices fetched, r.accounts indices = .ok fetched → fetched.length = indices.length ∧
    ∀ data index, (some data, index) ∈ fetched.zip indices → ObligationData text index data

def SolanaIndexerOp.Truthful (text : ℕ → Bytes) : SolanaIndexerOp → Prop
  | .beginTick _ reads => reads.Truthful text
  | _ => True

/-- The configurations of the ticks. -/
def SolanaIndexerOp.Within (Q : SolanaIndexerConfig → Prop) : SolanaIndexerOp → Prop
  | .beginTick config _ => Q config
  | _ => True

/-- The route of a deposit by its text. Without a price for `SolToRhn` there is one
route. -/
def SolanaIndexerConfig.route (config : SolanaIndexerConfig) (payload : Bytes) : Direction :=
  if config.solToRhn.isSome ∧ destinationIsRobinhood payload = true then .solToRhn else .solToGlc

/-- A snapshot of the obligation under an index. -/
def SnapshotOf (text : ℕ → Bytes) (e : ℕ × SolanaAccounts.WithdrawalObligationSnapshot) : Prop :=
  e.2.index.toNat = e.1 ∧ e.2.glcAddress = text e.1

theorem snapshotOf_of_data {text : ℕ → Bytes} {data : Bytes} {index : ℕ}
    {snap : SolanaAccounts.WithdrawalObligationSnapshot} (h : ObligationData text index data)
    (hdecode : SolanaAccounts.decodeWithdrawalObligation data = .ok snap) :
    SnapshotOf text (index, snap) := by
  obtain ⟨o, discriminator, tail, rfl, hindex, htext⟩ := h
  rw [SolanaAccounts.decodeWithdrawalObligation_accountData] at hdecode
  cases hdecode
  exact ⟨hindex, htext⟩

/-- Every index that was asked for is read, or the tick fails. -/
theorem zip_of_decodeFetched {fetched : List (Option Bytes)} {indices : List ℕ}
    {snaps : List SolanaAccounts.WithdrawalObligationSnapshot}
    (hlen : fetched.length = indices.length)
    (h : decodeFetched (fetched.zip indices) = .ok snaps) :
    (∀ i ∈ indices, ∃ snap, (i, snap) ∈ indices.zip snaps) ∧
      ∀ e ∈ indices.zip snaps, ∃ data, (some data, e.1) ∈ fetched.zip indices ∧
        SolanaAccounts.decodeWithdrawalObligation data = .ok e.2 := by
  induction fetched generalizing indices snaps with
  | nil =>
    obtain rfl := List.length_eq_zero_iff.mp hlen.symm
    simp
  | cons account fetched ih =>
    cases indices with
    | nil => cases hlen
    | cons index indices =>
      simp only [List.zip_cons_cons, decodeFetched, bind_eq_ok, orFail_eq_ok, mapError_eq_ok,
        pure_eq_ok] at h
      obtain ⟨data, rfl, snap, hsnap, rest, hrest, rfl⟩ := h
      obtain ⟨hall, hdata⟩ := ih (Nat.succ.inj hlen) hrest
      simp only [List.zip_cons_cons, List.mem_cons]
      constructor
      · rintro i (rfl | hi)
        · exact ⟨snap, .inl rfl⟩
        · obtain ⟨snap', hmem⟩ := hall i hi
          exact ⟨snap', .inr hmem⟩
      · rintro e (rfl | he)
        · exact ⟨data, .inl rfl, hsnap⟩
        · obtain ⟨data', hmem, hdecode⟩ := hdata e he
          exact ⟨data', .inr hmem, hdecode⟩

namespace SolanaIndexer

variable {s s' : SolanaIndexer} {config : SolanaIndexerConfig} {reads : SolanaTickReads}
  {text : ℕ → Bytes}

/-- A tick starts with all that is new up to the count, or finds nothing new. -/
theorem beginTick_cases (htrue : reads.Truthful text) (h : s.beginTick config reads = .ok s') :
    (∃ count slot, count ≤ s.lastSyncedObligationCount ∧
      s' = s.setLastSyncedObligationCount count slot reads.now) ∨
    ∃ t, s' = { s with tick := some t } ∧ t.config = config ∧
      (∀ i < t.obligationCount, i < s.lastSyncedObligationCount ∨ ∃ snap, (i, snap) ∈ t.remaining) ∧
      ∀ e ∈ t.remaining, SnapshotOf text e := by
  simp only [beginTick, bind_eq_ok, orFail_eq_ok, mapError_eq_ok, require_eq_ok, exists_unit] at h
  obtain ⟨slot, -, account, -, data, -, snapshot, -, hle, h⟩ := h
  have hlast : (if reads.stateReadable then s.lastSyncedObligationCount else 0) ≤
      s.lastSyncedObligationCount := by
    split <;> omega
  generalize (if reads.stateReadable then s.lastSyncedObligationCount else 0) = lastSynced at *
  split_ifs at h with hsame
  · obtain rfl := pure_eq_ok.mp h
    exact .inl ⟨lastSynced, slot, hlast, rfl⟩
  · simp only [bind_eq_ok, pure_eq_ok] at h
    obtain ⟨fetched, hfetched, decimals, -, snaps, hsnaps, rfl⟩ := h
    rw [SolanaIndexerError.call, mapError_eq_ok] at hfetched
    obtain ⟨hlen, hdata⟩ := htrue _ _ hfetched
    obtain ⟨hall, hdecoded⟩ := zip_of_decodeFetched hlen hsnaps
    refine .inr ⟨_, rfl, rfl, fun i hi => ?_, fun e he => ?_⟩
    · by_cases hnew : lastSynced ≤ i
      · exact .inr (hall i (List.mem_range'_1.mpr ⟨hnew, by dsimp only at hi; omega⟩))
      · exact .inl (by omega)
    · obtain ⟨data', hmem, hdecode⟩ := hdecoded e he
      exact snapshotOf_of_data (hdata _ _ hmem) hdecode

end SolanaIndexer

theorem SolanaTick.folds_of_foldObligation {t : SolanaTick} {book : RateBook} {index : ℕ}
    {snap : SolanaAccounts.WithdrawalObligationSnapshot} (hwf : l.Wf)
    (h : t.foldObligation book l index snap = .ok l') :
    Ledger.Folds (t.config.route snap.glcAddress) snap.index.toNat l l' := by
  have goldcoin : t.foldToGoldcoin book l index snap = .ok l' →
      Ledger.Folds .solToGlc snap.index.toNat l l' := by
    intro h
    simp only [foldToGoldcoin, bind_eq_ok, mapError_eq_ok] at h
    obtain ⟨gross, -, pricing, -, h⟩ := h
    exact Ledger.folds_of_foldSolDeposit hwf h
  unfold foldObligation at h
  unfold SolanaIndexerConfig.route
  cases hfee : t.config.solToRhn with
  | none =>
    rw [hfee] at h
    exact goldcoin h
  | some feeBps =>
    rw [hfee] at h
    dsimp only at h
    by_cases hbound : destinationIsRobinhood snap.glcAddress = true
    · rw [if_pos hbound] at h
      rw [if_pos ⟨rfl, hbound⟩]
      simp only [foldToRobinhood, bind_eq_ok, mapError_eq_ok, require_eq_ok, exists_unit] at h
      obtain ⟨gross, -, pricing, -, -, h⟩ := h
      exact Ledger.folds_of_foldSolDepositToRobinhood hwf h
    · rw [if_neg hbound] at h
      rw [if_neg fun hroute => hbound hroute.2]
      exact goldcoin h

/-! ## The invariant -/

namespace Ledger

variable {Q : SolanaIndexerConfig → Prop} {text : ℕ → Bytes}

/-- No index has two requests, and each has the route of its text under one of the
configurations. -/
structure FoldedOnce (Q : SolanaIndexerConfig → Prop) (text : ℕ → Bytes) (l : Ledger) : Prop where
  once : ∀ i id id' r r', l.requests.get? id = some r → l.requests.get? id' = some r' →
    r.FoldOf i → r'.FoldOf i → id = id'
  route : ∀ i id r, l.requests.get? id = some r → r.FoldOf i →
    ∃ config, Q config ∧ r.direction = config.route (text i)

theorem Folded.keeps {new : ℕ → Request → Prop} (h : l.Folded i) (hkeeps : l.KeepsFolds l' new) :
    l'.Folded i := by
  obtain ⟨id, r, hget, hfold⟩ := h
  obtain ⟨r', hget', hsame⟩ := hkeeps.kept id r hget hfold.1
  exact ⟨id, r', hget', hsame.foldOf.mpr hfold⟩

theorem FoldedOnce.keeps {new : ℕ → Request → Prop} (h : l.FoldedOnce Q text)
    (hkeeps : l.KeepsFolds l' new)
    (hnew : ∀ id r i, new id r → r.FoldOf i → id = l.requests.nextKey ∧ ¬ l.Folded i ∧
      ∃ config, Q config ∧ r.direction = config.route (text i)) : l'.FoldedOnce Q text where
  once i id id' r r' hget hget' hfold hfold' := by
    obtain ⟨r₀, hget₀, hsame⟩ | hr := hkeeps.origin id r i hget hfold
    · obtain ⟨r₀', hget₀', hsame'⟩ | hr' := hkeeps.origin id' r' i hget' hfold'
      · exact h.once i id id' r₀ r₀' hget₀ hget₀' (hsame.foldOf.mp hfold) (hsame'.foldOf.mp hfold')
      · exact absurd ⟨id, r₀, hget₀, hsame.foldOf.mp hfold⟩ (hnew id' r' i hr' hfold').2.1
    · obtain ⟨hid, hfree, -⟩ := hnew id r i hr hfold
      obtain ⟨r₀', hget₀', hsame'⟩ | hr' := hkeeps.origin id' r' i hget' hfold'
      · exact absurd ⟨id', r₀', hget₀', hsame'.foldOf.mp hfold'⟩ hfree
      · exact hid.trans (hnew id' r' i hr' hfold').1.symm
  route i id r hget hfold := by
    obtain ⟨r₀, hget₀, hsame⟩ | hr := hkeeps.origin id r i hget hfold
    · rw [hsame.direction]
      exact h.route i id r₀ hget₀ (hsame.foldOf.mp hfold)
    · exact (hnew id r i hr hfold).2.2

end Ledger

namespace SolanaIndexer

variable {Q : SolanaIndexerConfig → Prop} {text : ℕ → Bytes} {s s' : SolanaIndexer}
  {op : SolanaIndexerOp}

/-- What is left to fold in a tick covers all that is not folded below its count. -/
structure TickInv (Q : SolanaIndexerConfig → Prop) (text : ℕ → Bytes) (l : Ledger)
    (t : SolanaTick) : Prop where
  config : Q t.config
  covers : ∀ i < t.obligationCount, l.Folded i ∨ ∃ snap, (i, snap) ∈ t.remaining
  snapshots : ∀ e ∈ t.remaining, SnapshotOf text e

structure Inv (Q : SolanaIndexerConfig → Prop) (text : ℕ → Bytes) (s : SolanaIndexer) : Prop where
  wf : s.ledger.Wf
  folds : s.ledger.FoldedOnce Q text
  synced : ∀ i < s.lastSyncedObligationCount, s.ledger.Folded i
  tick : ∀ t, s.tick = some t → TickInv Q text s.ledger t

theorem Inv.start : start.Inv Q text where
  wf := Ledger.wf_empty
  folds := ⟨fun _ _ _ _ _ h => (by cases h), fun _ _ _ h => (by cases h)⟩
  synced _ h := absurd h (Nat.not_lt_zero _)
  tick _ h := by cases h

theorem TickInv.keeps {new : ℕ → Request → Prop} {t : SolanaTick} (h : TickInv Q text l t)
    (hkeeps : l.KeepsFolds l' new) : TickInv Q text l' t where
  config := h.config
  covers i hi := (h.covers i hi).imp_left fun hfolded => hfolded.keeps hkeeps
  snapshots := h.snapshots

/-- The index that is next is folded, and the rest is left. -/
theorem TickInv.foldNext {t : SolanaTick} {index : ℕ}
    {snap : SolanaAccounts.WithdrawalObligationSnapshot}
    {remaining : List (ℕ × SolanaAccounts.WithdrawalObligationSnapshot)} (h : TickInv Q text l t)
    (hremaining : t.remaining = (index, snap) :: remaining) (hfolded : l.Folded index) :
    TickInv Q text l { t with remaining := remaining } where
  config := h.config
  covers i hi := by
    obtain hi | ⟨snap', hmem⟩ := h.covers i hi
    · exact .inl hi
    · rw [hremaining, List.mem_cons] at hmem
      obtain hnext | hmem := hmem
      · cases hnext
        exact .inl hfolded
      · exact .inr ⟨snap', hmem⟩
  snapshots e he := h.snapshots e (hremaining ▸ List.mem_cons_of_mem _ he)

/-- A fold of the index that is next. -/
theorem folds_of_next {t : SolanaTick} {book : RateBook} {index : ℕ}
    {snap : SolanaAccounts.WithdrawalObligationSnapshot}
    {remaining : List (ℕ × SolanaAccounts.WithdrawalObligationSnapshot)} (hwf : l.Wf)
    (ht : TickInv Q text l t) (hremaining : t.remaining = (index, snap) :: remaining)
    (h : t.foldObligation book l index snap = .ok l') :
    Ledger.Folds (t.config.route (text index)) index l l' := by
  have hsnap := ht.snapshots (index, snap) (by rw [hremaining]; exact List.mem_cons_self)
  have hfolds := SolanaTick.folds_of_foldObligation hwf h
  rwa [hsnap.1, hsnap.2] at hfolds

theorem Inv.step (hinv : s.Inv Q text) (htrue : op.Truthful text) (hwithin : op.Within Q)
    (h : s.step op = some s') : s'.Inv Q text := by
  cases op with
  | beginTick config reads =>
    simp only [SolanaIndexer.step] at h
    split at h
    · cases h
    rename_i hnone
    rw [toOption_eq_some] at h
    obtain ⟨count, slot, hle, rfl⟩ | ⟨t, rfl, rfl, hcovers, hsnapshots⟩ := beginTick_cases htrue h
    · exact {
        wf := hinv.wf
        folds := hinv.folds
        synced := fun i hi => hinv.synced i (hi.trans_le hle)
        tick := hinv.tick }
    · refine ⟨hinv.wf, hinv.folds, hinv.synced, fun t' ht' => ?_⟩
      obtain rfl := Option.some.inj ht'
      exact ⟨hwithin, fun i hi => (hcovers i hi).imp_left (hinv.synced i), hsnapshots⟩
  | foldNext book =>
    simp only [SolanaIndexer.step] at h
    split at h
    · cases h
    rename_i t htick
    have ht := hinv.tick t htick
    split at h
    · cases h
    rename_i index snap remaining hremaining
    split at h
    · rename_i l' hfold
      obtain rfl := Option.some.inj h
      have hfolds := folds_of_next hinv.wf ht hremaining hfold
      refine ⟨hfolds.wf, hinv.folds.keeps hfolds.keeps ?_,
        fun i hi => (hinv.synced i hi).keeps hfolds.keeps, fun t' ht' => ?_⟩
      · rintro id r i ⟨hid, hdirection, hindex, hfree⟩ hfoldOf
        obtain rfl := Option.some.inj (hindex.symm.trans hfoldOf.2)
        exact ⟨hid, hfree, t.config, ht.config, hdirection⟩
      · obtain rfl := Option.some.inj ht'
        exact (ht.keeps hfolds.keeps).foldNext hremaining hfolds.folded
    · obtain rfl := Option.some.inj h
      exact ⟨hinv.wf, hinv.folds, hinv.synced, fun _ ht' => (by cases ht')⟩
  | finishTick =>
    simp only [SolanaIndexer.step] at h
    split at h
    · cases h
    rename_i t htick
    have ht := hinv.tick t htick
    split_ifs at h with hdone
    obtain rfl := Option.some.inj h
    refine ⟨hinv.wf, hinv.folds, fun i hi => ?_, fun _ ht' => (by cases ht')⟩
    -- nothing is left, so all below the count are folded
    obtain hfolded | ⟨snap, hmem⟩ := ht.covers i hi
    · exact hfolded
    · rw [hdone] at hmem
      cases hmem
  | crash =>
    obtain rfl := Option.some.inj h
    exact ⟨hinv.wf, hinv.folds, hinv.synced, fun _ ht' => (by cases ht')⟩
  | ledger op =>
    simp only [SolanaIndexer.step] at h
    split_ifs at h with hop
    obtain ⟨l', hl', rfl⟩ := Option.map_eq_some_iff.mp h
    have hkeeps := Ledger.keepsFolds_of_step hinv.wf (by simpa using hop) hl'
    exact {
      wf := hinv.wf.step hl'
      folds := hinv.folds.keeps hkeeps fun _ _ _ hfalse => hfalse.elim
      synced := fun i hi => (hinv.synced i hi).keeps hkeeps
      tick := fun t ht => (hinv.tick t ht).keeps hkeeps }

theorem ledger_beginTick {config : SolanaIndexerConfig} {reads : SolanaTickReads}
    (h : s.beginTick config reads = .ok s') : s'.ledger = s.ledger := by
  simp only [beginTick, bind_eq_ok, require_eq_ok, exists_unit] at h
  obtain ⟨slot, -, account, -, data, -, snapshot, -, -, h⟩ := h
  generalize (if reads.stateReadable then s.lastSyncedObligationCount else 0) = lastSynced at h
  split_ifs at h
  · obtain rfl := pure_eq_ok.mp h
    rfl
  · simp only [bind_eq_ok, pure_eq_ok] at h
    obtain ⟨fetched, -, decimals, -, snaps, -, rfl⟩ := h
    rfl

/-- The requests of Solana deposits stay through every step. -/
theorem kept_of_step (hwf : s.ledger.Wf) (h : s.step op = some s') : s'.ledger.Wf ∧
    ∀ id r, s.ledger.requests.get? id = some r → r.direction.sourceIsSolana →
      ∃ r', s'.ledger.requests.get? id = some r' ∧ SameDeposit r r' := by
  have same : s'.ledger = s.ledger → s'.ledger.Wf ∧
      ∀ id r, s.ledger.requests.get? id = some r → r.direction.sourceIsSolana →
        ∃ r', s'.ledger.requests.get? id = some r' ∧ SameDeposit r r' := by
    intro heq
    rw [heq]
    exact ⟨hwf, fun _ r hget _ => ⟨r, hget, .refl r⟩⟩
  cases op with
  | beginTick config reads =>
    simp only [SolanaIndexer.step] at h
    split at h
    · cases h
    exact same (ledger_beginTick (toOption_eq_some.mp h))
  | foldNext book =>
    simp only [SolanaIndexer.step] at h
    split at h
    · cases h
    split at h
    · cases h
    split at h
    · rename_i l' hfold
      obtain rfl := Option.some.inj h
      have hfolds := SolanaTick.folds_of_foldObligation hwf hfold
      exact ⟨hfolds.wf, hfolds.keeps.kept⟩
    · obtain rfl := Option.some.inj h
      exact same rfl
  | finishTick =>
    simp only [SolanaIndexer.step] at h
    split at h
    · cases h
    split_ifs at h
    obtain rfl := Option.some.inj h
    exact same rfl
  | crash =>
    obtain rfl := Option.some.inj h
    exact same rfl
  | ledger op =>
    simp only [SolanaIndexer.step] at h
    split_ifs at h with hop
    obtain ⟨l', hl', rfl⟩ := Option.map_eq_some_iff.mp h
    exact ⟨hwf.step hl', (Ledger.keepsFolds_of_step hwf (by simpa using hop) hl').kept⟩

/-- The requests of Solana deposits stay through every run. -/
theorem kept (hwf : s.ledger.Wf) (ops : List SolanaIndexerOp) {id : ℕ} {r : Request}
    (hget : s.ledger.requests.get? id = some r) (hsource : r.direction.sourceIsSolana) :
    ∃ r', (Run.final step s ops).ledger.requests.get? id = some r' ∧ SameDeposit r r' := by
  refine Run.relates (fun s => s.ledger.Wf) (fun s s' => ∀ id r,
    s.ledger.requests.get? id = some r → r.direction.sourceIsSolana →
      ∃ r', s'.ledger.requests.get? id = some r' ∧ SameDeposit r r')
    (fun _ _ r hget _ => ⟨r, hget, .refl r⟩) ?_ (fun _ _ _ hwf h => (kept_of_step hwf h).1)
    (fun _ _ _ hwf h => (kept_of_step hwf h).2) hwf ops id r hget hsource
  intro s₁ s₂ s₃ h₁ h₂ id r hget hsource
  obtain ⟨r₂, hget₂, hsame₂⟩ := h₁ id r hget hsource
  obtain ⟨r₃, hget₃, hsame₃⟩ := h₂ id r₂ hget₂ (hsame₂.direction ▸ hsource)
  exact ⟨r₃, hget₃, hsame₂.trans hsame₃⟩

theorem inv_after (ops : List SolanaIndexerOp)
    (htrue : ∀ op ∈ ops, op.Truthful text) (hwithin : ∀ op ∈ ops, op.Within Q) :
    (after ops).Inv Q text := by
  have hstep : ∀ (s : SolanaIndexer) (op : SolanaIndexerOp) (s' : SolanaIndexer), s.Inv Q text →
      op.Truthful text ∧ op.Within Q → s.step op = some s' → s'.Inv Q text :=
    fun _ _ _ hinv hok h => hinv.step hok.1 hok.2 h
  refine Run.invariant_of_history hstep .start ops fun e he => ?_
  have hmem : e.2 ∈ ops := Run.history_sublist.subset (List.mem_map_of_mem he)
  exact ⟨htrue e.2 hmem, hwithin e.2 hmem⟩

/-! ## Exactly once -/

/-- Wherever ticks fail, stop and start again, every obligation below the cursor has
one request, on the route its text has under the configuration of a tick; no index
has two; and no later step changes the amounts of one. -/
theorem folded_once (text : ℕ → Bytes) (ops later : List SolanaIndexerOp)
    (htrue : ∀ op ∈ ops, op.Truthful text) :
    (∀ i < (after ops).lastSyncedObligationCount, ∃ id r,
      (after ops).ledger.requests.get? id = some r ∧ r.FoldOf i ∧
      ∃ config reads, SolanaIndexerOp.beginTick config reads ∈ ops ∧
        r.direction = config.route (text i)) ∧
    (∀ i id id' r r', (after ops).ledger.requests.get? id = some r →
      (after ops).ledger.requests.get? id' = some r' → r.FoldOf i → r'.FoldOf i → id = id') ∧
    ∀ id r, (after ops).ledger.requests.get? id = some r → r.direction.sourceIsSolana →
      ∃ r', (after (ops ++ later)).ledger.requests.get? id = some r' ∧ SameDeposit r r' := by
  have hinv : (after ops).Inv
      (fun config => ∃ reads, SolanaIndexerOp.beginTick config reads ∈ ops) text := by
    refine inv_after ops htrue fun op hop => ?_
    cases op with
    | beginTick config reads => exact ⟨reads, hop⟩
    | _ => trivial
  refine ⟨fun i hi => ?_, hinv.folds.once, fun id r hget hsource => ?_⟩
  · obtain ⟨id, r, hget, hfold⟩ := hinv.synced i hi
    obtain ⟨config, ⟨reads, hmem⟩, hroute⟩ := hinv.folds.route i id r hget hfold
    exact ⟨id, r, hget, hfold, config, reads, hmem, hroute⟩
  · rw [after, Run.final_append]
    exact kept hinv.wf later hget hsource

/-- One deposit for Goldcoin and one for Robinhood. -/
def sampleText (index : ℕ) : Bytes := if index = 1 then [48, 120] else [71]

def sampleObligation (index : UInt64) : Solana.WithdrawalObligation where
  index := index
  amount := 1000000
  requester := Vector.replicate 32 5
  glcAddress := Vector.ofFn fun i => (sampleText index.toNat).getD i 0
  glcAddressLen := (sampleText index.toNat).length.toUInt8
  status := .pending
  requestedAtSlot := 0
  protocolVersion := 1
  bump := 255
  reserved := Vector.replicate 48 0

def sampleAccount (index : ℕ) : Option Bytes :=
  if index < 2 then
    some (SolanaAccounts.accountData (Vector.replicate 8 9)
      (SolanaAccounts.withdrawalObligationBytes (sampleObligation index.toUInt64)) [])
  else none

/-- The configuration says that there are two obligations. -/
def sampleReads (stateReadable : Bool) : SolanaTickReads where
  slot := .ok 7
  configAccount := .ok (some (List.replicate 111 0 ++ [2, 0, 0, 0, 0, 0, 0, 0] ++
    List.replicate 60 0))
  stateReadable := stateReadable
  accounts := fun indices => .ok (indices.map sampleAccount)
  decimals := .ok 6
  now := 1000
  routeOpen := true
  destinationMax := none

theorem sampleReads_truthful (stateReadable : Bool) :
    (sampleReads stateReadable).Truthful sampleText := by
  intro indices fetched hfetched
  obtain rfl := Except.ok.inj hfetched
  refine ⟨List.length_map _, fun data index hmem => ?_⟩
  have haccount : sampleAccount index = some data := by
    obtain ⟨k, hk⟩ := List.mem_iff_getElem?.mp hmem
    rw [List.getElem?_zip_eq_some, List.getElem?_map, Option.map_eq_some_iff] at hk
    obtain ⟨⟨index', hindex', hdata⟩, hindex⟩ := hk
    obtain rfl := Option.some.inj (hindex'.symm.trans hindex)
    exact hdata
  unfold sampleAccount at haccount
  split_ifs at haccount with hlt
  refine ⟨_, _, _, (Option.some.inj haccount).symm, ?_⟩
  obtain rfl | rfl : index = 0 ∨ index = 1 := by omega
  · decide +kernel
  · decide +kernel

/-- A tick that stops after its first fold, one that finds that fold and goes on, and
the cursor. -/
def sampleConfig (solToRhn : Option ℕ) : SolanaIndexerConfig where
  feeBps := 300
  solToRhn := solToRhn
  sourceMinimum := ⟨0, by decide⟩
  parseEvmAddress := fun _ => .ok [1]

def sampleRun (solToRhn : Option ℕ) : List SolanaIndexerOp :=
  let book : RateBook := fun _ _ _ _ _ => .error (.refused .feedStale)
  [.ledger (.configureReserve .goldcoinReserve 1000 0),
    .ledger (.configureReserve .robinhoodReserve 1000 0),
    .beginTick (sampleConfig solToRhn) (sampleReads true), .foldNext book, .crash,
    .beginTick (sampleConfig solToRhn) (sampleReads true), .foldNext book, .foldNext book,
    .finishTick]

theorem sampleRun_truthful (solToRhn : Option ℕ) :
    ∀ op ∈ sampleRun solToRhn, op.Truthful sampleText := by
  intro op hop
  cases op with
  | beginTick config reads =>
    obtain ⟨-, rfl⟩ : config = sampleConfig solToRhn ∧ reads = sampleReads true := by
      simpa [sampleRun] using hop
    exact sampleReads_truthful true
  | _ => trivial

theorem folded_once_sample :
    (after (sampleRun (some 300))).lastSyncedObligationCount = 2 ∧
      (∃ id r, (after (sampleRun (some 300))).ledger.requests.get? id = some r ∧ r.FoldOf 0) ∧
      ∃ id r, (after (sampleRun (some 300))).ledger.requests.get? id = some r ∧ r.FoldOf 1 := by
  have hcursor : (after (sampleRun (some 300))).lastSyncedObligationCount = 2 := by decide +kernel
  obtain ⟨hfolded, -, -⟩ := folded_once sampleText (sampleRun (some 300)) [] (sampleRun_truthful _)
  obtain ⟨id, r, hget, hfold, -⟩ := hfolded 0 (by omega)
  obtain ⟨id', r', hget', hfold', -⟩ := hfolded 1 (by omega)
  exact ⟨hcursor, ⟨id, r, hget, hfold⟩, ⟨id', r', hget', hfold'⟩⟩

/-- Where `SolToRhn` has no price, a deposit whose text names a Robinhood address is
folded on the Goldcoin route. -/
theorem unpriced_route :
    ¬ ∀ (text : ℕ → Bytes) (ops : List SolanaIndexerOp), (∀ op ∈ ops, op.Truthful text) →
      ∀ i < (after ops).lastSyncedObligationCount, ∀ id r,
        (after ops).ledger.requests.get? id = some r → r.FoldOf i →
          (r.direction = .solToRhn ↔ destinationIsRobinhood (text i) = true) := by
  intro hall
  have hcursor : 1 < (after (sampleRun none)).lastSyncedObligationCount := by decide +kernel
  have hrow : ((after (sampleRun none)).ledger.requests.get? 2).map (fun r =>
      (r.direction, r.sourceObligationIndex)) = some (.solToGlc, some 1) := by decide +kernel
  obtain ⟨r, hget, hcolumns⟩ := Option.map_eq_some_iff.mp hrow
  obtain ⟨hdirection, hindex⟩ := Prod.mk.inj hcolumns
  have hroute := hall sampleText (sampleRun none) (sampleRun_truthful none) 1 hcursor 2 r hget
    ⟨by rw [hdirection]; rfl, hindex⟩
  rw [hdirection] at hroute
  cases hroute.mpr (by decide)

end SolanaIndexer

end Service
