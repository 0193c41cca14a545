-- SUMMARY: The lifecycle of a vault split as moves of one split at a time, and what holds of the splits whatever moves are made: the rows, what was handed to the node, and the sources.
import ReserveBridge.Service.Goldcoin.Liquidity
import ReserveBridge.Service.Ledger.VaultRows
import Mathlib.Logic.Relation

/-!
# The lifecycle of a split

A move is what a driver does to one split between two points at which it may be
killed. A split that was not signed is let go of at any time. Of one that was, the
bytes are kept, handed to the node, and recorded as broadcast, and only an
operator lets go of it.
-/

namespace Service
open Guard

/-! ## Rows -/

/-- The split an operation writes to. -/
def Op.splitId : Op → Option ℕ
  | .recordSplitSigned id | .recordSplitBroadcast id _ _ | .recordSplitConfirmed id
  | .abandonSplit id _ | .readoptSplit id | .setSplitMissingInputs id _
  | .clearSplitMissingInputs id => some id
  | _ => none

/-- The update of a row by an operation on it. -/
inductive Split.Rewrite : Op → Split → Split → Prop
  | signed {id : ℕ} {s : Split} (h : s.state = .built) :
    Rewrite (.recordSplitSigned id) s { s with state := .signed, signed := true }
  | broadcast {id : ℕ} {txid : Txid} {amounts : List ℤ} {s : Split}
    (h : s.state = .signed ∨ s.state = .broadcast) :
    Rewrite (.recordSplitBroadcast id txid amounts) s { s with state := .broadcast, txid := some txid }
  | confirmed {id : ℕ} {s : Split} (h : s.state = .broadcast) :
    Rewrite (.recordSplitConfirmed id) s { s with state := .confirmed, missingInputsSince := none }
  | abandoned {id : ℕ} {observed : Option Txid} {s : Split} (h : s.state.isLive = true) :
    Rewrite (.abandonSplit id observed) s { s with state := .abandoned, txid := s.txid <|> observed }
  | stays {id : ℕ} {observed : Option Txid} {s : Split} (h : s.state = .abandoned) :
    Rewrite (.abandonSplit id observed) s s
  | readopted {id : ℕ} {s : Split} (h : s.state = .abandoned) (htxid : s.txid.isSome) :
    Rewrite (.readoptSplit id) s { s with state := .broadcast, missingInputsSince := none }
  | flagged {id : ℕ} {now : ℤ} {s : Split} (since : Option ℤ) :
    Rewrite (.setSplitMissingInputs id now) s { s with missingInputsSince := since }
  | cleared {id : ℕ} {s : Split} :
    Rewrite (.clearSplitMissingInputs id) s { s with missingInputsSince := none }

/-- The figures of a split. -/
structure Split.SameFigures (s' s : Split) : Prop where
  source : s'.source = s.source
  sourceAmount : s'.sourceAmount = s.sourceAmount
  fee : s'.fee = s.fee
  chunkCount : s'.chunkCount = s.chunkCount

theorem Split.Rewrite.figures {op : Op} {s s' : Split} (h : Split.Rewrite op s s') :
    s'.SameFigures s := by
  cases h <;> exact ⟨rfl, rfl, rfl, rfl⟩

namespace Ledger

variable {op : Op} {l l' : Ledger} {id : ℕ} {s : Split}

theorem get?_setSplit {v : Vault} (hget : v.splits.get? id = some s) (s' : Split) (i : ℕ) :
    (v.setSplit id s').splits.get? i = if i = id then some s' else v.splits.get? i := by
  rw [Vault.setSplit, Store.get?_modify]
  split_ifs with hi
  · rw [hi, hget, Option.map_some]
  · rfl

theorem onVault_step {x : Except LedgerError Vault} (hrun : l.run op = l.onVault x)
    (h : l.step op = some l') : ∃ v, x = .ok v ∧ { l with vault := v } = l' := by
  rw [step, toOption_eq_some, hrun] at h
  exact onVault_eq_ok.mp h

/-- The row is rewritten, if there is one, and no other. -/
def RewritesSplit (l : Ledger) (op : Op) (id : ℕ) (l' : Ledger) : Prop :=
  (l.vault.splits.get? id = none ∧ ∀ i, l'.vault.splits.get? i = l.vault.splits.get? i) ∨
    ∃ s s', l.vault.splits.get? id = some s ∧ Split.Rewrite op s s' ∧
      ∀ i, l'.vault.splits.get? i = if i = id then some s' else l.vault.splits.get? i

theorem split_rewrite (hid : op.splitId = some id) (h : l.step op = some l') :
    l.RewritesSplit op id l' := by
  have hmodify (f : Split → Split) (hsplits : l'.vault.splits = l.vault.splits.modify id f)
      (hf : ∀ s, Split.Rewrite op s (f s)) : l.RewritesSplit op id l' := by
    rw [RewritesSplit, hsplits]
    cases hget : l.vault.splits.get? id with
    | none =>
      refine .inl ⟨rfl, fun i => ?_⟩
      rw [Store.get?_modify]
      split_ifs with hi
      · rw [hi, hget, Option.map_none]
      · rfl
    | some s =>
      refine .inr ⟨s, f s, rfl, hf s, fun i => ?_⟩
      rw [Store.get?_modify]
      split_ifs with hi
      · rw [hi, hget, Option.map_some]
      · rfl
  cases op with
  | recordSplitSigned k =>
    obtain rfl : k = id := Option.some.inj hid
    obtain ⟨v, hv, rfl⟩ := onVault_step rfl h
    simp only [Vault.recordSplitSigned, bind_eq_ok, Vault.split_eq_ok, require_eq_ok, exists_unit,
      pure_eq_ok] at hv
    obtain ⟨s, hget, hstate, rfl⟩ := hv
    exact .inr ⟨s, _, hget, .signed hstate, get?_setSplit hget _⟩
  | recordSplitBroadcast k txid amounts =>
    obtain rfl : k = id := Option.some.inj hid
    obtain ⟨v, hv, rfl⟩ := onVault_step rfl h
    simp only [Vault.recordSplitBroadcast, bind_eq_ok, Vault.split_eq_ok, require_eq_ok, exists_unit,
      orFail_eq_ok, pure_eq_ok] at hv
    obtain ⟨s, hget, hstate, u, -, -, rfl⟩ := hv
    exact .inr ⟨s, _, hget, .broadcast hstate, get?_setSplit hget _⟩
  | recordSplitConfirmed k =>
    obtain rfl : k = id := Option.some.inj hid
    obtain ⟨v, hv, rfl⟩ := onVault_step rfl h
    simp only [Vault.recordSplitConfirmed, bind_eq_ok, Vault.split_eq_ok, require_eq_ok, exists_unit,
      pure_eq_ok] at hv
    obtain ⟨s, hget, hstate, rfl⟩ := hv
    exact .inr ⟨s, _, hget, .confirmed hstate, get?_setSplit hget _⟩
  | abandonSplit k observed =>
    obtain rfl : k = id := Option.some.inj hid
    obtain ⟨v, hv, rfl⟩ := onVault_step rfl h
    simp only [Vault.abandonSplit, bind_eq_ok, Vault.split_eq_ok] at hv
    obtain ⟨s, hget, hv⟩ := hv
    by_cases hdone : s.state = .abandoned
    · rw [if_pos hdone, pure_eq_ok] at hv
      subst hv
      refine .inr ⟨s, s, hget, .stays hdone, fun i => ?_⟩
      split_ifs with hi
      · rw [hi, hget]
      · rfl
    · rw [if_neg hdone] at hv
      simp only [bind_eq_ok, require_eq_ok, exists_unit, pure_eq_ok] at hv
      obtain ⟨hlive, rfl⟩ := hv
      refine .inr ⟨s, _, hget, .abandoned hlive, fun i => ?_⟩
      dsimp only
      split <;> exact get?_setSplit hget _ i
  | readoptSplit k =>
    obtain rfl : k = id := Option.some.inj hid
    obtain ⟨v, hv, rfl⟩ := onVault_step rfl h
    simp only [Vault.readoptSplit, bind_eq_ok, Vault.split_eq_ok, require_eq_ok, exists_unit,
      pure_eq_ok] at hv
    obtain ⟨s, hget, ⟨hstate, htxid⟩, -, rfl⟩ := hv
    exact .inr ⟨s, _, hget, .readopted hstate htxid, get?_setSplit hget _⟩
  | setSplitMissingInputs k now =>
    obtain rfl : k = id := Option.some.inj hid
    obtain ⟨v, hv, rfl⟩ := onVault_step rfl h
    obtain rfl := Except.ok.inj hv
    refine hmodify (fun s =>
      if s.state = .broadcast ∧ s.missingInputsSince = none then
        { s with missingInputsSince := some now }
      else s) rfl fun s => ?_
    split_ifs
    · exact .flagged (some now)
    · exact .flagged s.missingInputsSince
  | clearSplitMissingInputs k =>
    obtain rfl : k = id := Option.some.inj hid
    obtain ⟨v, hv, rfl⟩ := onVault_step rfl h
    obtain rfl := Except.ok.inj hv
    exact hmodify _ rfl fun s => .cleared
  | _ => cases hid

/-- A split that is taken back is the only one of its source. -/
theorem readopt_alone (h : l.step (.readoptSplit id) = some l') :
    ∃ s, l.vault.splits.get? id = some s ∧ ¬ l.vault.AlreadySplit s.source := by
  obtain ⟨v, hv, -⟩ := onVault_step rfl h
  simp only [Vault.readoptSplit, bind_eq_ok, Vault.split_eq_ok, require_eq_ok, exists_unit] at hv
  obtain ⟨s, hget, -, halone, -⟩ := hv
  exact ⟨s, hget, halone⟩

/-- A new split, which is the only one of its source. -/
theorem recordSplitBuilt_step {o : Outpoint} {amount fee : ℤ} {count : ℕ}
    (h : l.step (.recordSplitBuilt o amount fee count) = some l') :
    ¬ l.vault.AlreadySplit o ∧ ∃ s, s.source = o ∧ s.chunkCount = count ∧ s.state = .built ∧
      s.signed = false ∧ s.txid = none ∧ l'.vault.splits = l.vault.splits.push s := by
  obtain ⟨v, hv, rfl⟩ := onVault_step rfl h
  simp only [Vault.recordSplitBuilt, bind_eq_ok, require_eq_ok, exists_unit, orFail_eq_ok,
    pure_eq_ok] at hv
  obtain ⟨halone, u, -, -, rfl⟩ := hv
  exact ⟨halone, _, rfl, rfl, rfl, rfl, rfl, rfl⟩

/-- The chunks of a split are in the pool. -/
theorem get?_insertChunks (v : Vault) (txid : Txid) (amounts : List ℤ) {i : ℕ}
    (hi : i < amounts.length) : ((v.insertChunks txid amounts).utxos.get? (txid, i)).isSome := by
  have loop (xs : List (ℤ × ℕ)) (s : Store Outpoint VaultUtxo)
      (h : (s.get? (txid, i)).isSome ∨ i ∈ xs.map Prod.snd) :
      ((xs.foldl (fun utxos a => utxos.upsert (txid, a.2) (.fresh a.1 0 .unconfirmed) id) s).get?
        (txid, i)).isSome := by
    induction xs generalizing s with
    | nil => exact h.resolve_right (by simp)
    | cons x xs ih =>
      refine ih _ ?_
      rw [List.map_cons, List.mem_cons] at h
      rw [Store.get?_upsert]
      obtain h | h | h := h
      · split_ifs
        · cases hget : s.get? (txid, i) <;> simp
        · exact .inl h
      · rw [if_pos (by rw [h])]
        exact .inl (by cases hget : s.get? (txid, i) <;> simp)
      · exact .inr h
  refine loop amounts.zipIdx v.utxos (.inr ?_)
  rw [List.zipIdx_map_snd]
  simpa using hi

/-- The source of a split that was recorded as broadcast is spent by a transaction of
this service, and the chunks are in the pool. -/
theorem recordSplitBroadcast_step {txid : Txid} {amounts : List ℤ}
    (h : l.step (.recordSplitBroadcast id txid amounts) = some l') :
    ∃ s u, l.vault.splits.get? id = some s ∧ l'.vault.utxos.get? s.source = some u ∧
      u.state = .spent ∧ u.isMarked = true ∧
      ∀ i < amounts.length, (l'.vault.utxos.get? (txid, i)).isSome := by
  obtain ⟨v, hv, rfl⟩ := onVault_step rfl h
  simp only [Vault.recordSplitBroadcast, bind_eq_ok, Vault.split_eq_ok, require_eq_ok, exists_unit,
    orFail_eq_ok, pure_eq_ok] at hv
  obtain ⟨s, hget, -, u, hu, hstate, rfl⟩ := hv
  have hmarked : (u.spendBySplit txid).state = .spent ∧ (u.spendBySplit txid).isMarked = true := by
    unfold VaultUtxo.spendBySplit
    obtain hstate | hstate := hstate
    · simp [hstate, VaultUtxo.isMarked]
    · cases u.spentBy <;> simp [hstate, VaultUtxo.isMarked]
  let marked : Vault := { l.vault.setSplit id { s with state := .broadcast, txid := some txid } with
    utxos := l.vault.utxos.modify s.source fun u => u.spendBySplit txid }
  have hrow : marked.utxos.get? s.source = some (u.spendBySplit txid) := by
    change (l.vault.utxos.modify s.source _).get? s.source = _
    rw [Store.get?_modify, if_pos rfl, hu, Option.map_some]
  have hkeeps : KeepsUtxos (fun _ => False) marked.utxos (marked.insertChunks txid amounts).utxos :=
    Vault.insertChunks_keepsUtxos marked txid amounts
  obtain ⟨u', hu', hkept⟩ := hkeeps.row hrow
  exact ⟨s, u', hget, hu', hkept.spent hmarked.1 (.inl hmarked.2), hkept.marked hmarked.2,
    fun i hi => get?_insertChunks _ txid amounts hi⟩

/-- The other operations leave the splits alone. -/
theorem splits_eq (hwf : l.Wf) (hop : op.writesSplits = false) (h : l.step op = some l') :
    l'.vault.splits = l.vault.splits := by
  by_cases htouches : op.touchesVault = false
  · rw [(effect_of_step hwf h).vault_eq htouches]
  rw [step, toOption_eq_some] at h
  cases op with
  | beginGoldcoinRefund id amount inputs note => exact (beginGoldcoinRefund_took h).splits
  | recordGoldcoinRefundBroadcast id txid =>
    have hkeeps : KeepsUtxos (fun _ => False) _ _ ∧ _ := recordGoldcoinRefundBroadcast_keeps h
    exact hkeeps.2
  | reserveVaultUtxos id selected depth => exact (reserveVaultUtxos_took h).1.splits
  | buildPayout id plan depth => exact (buildPayout_took h).1.splits
  | recordGoldcoinPayoutBroadcast id txid => exact (recordGoldcoinPayoutBroadcast_keeps h).2
  | markGoldcoinCompletionConfirmed id =>
    have hkeeps : KeepsUtxos (fun _ => False) _ _ ∧ _ := goldcoinCompletionConfirmed_keeps h
    exact hkeeps.2
  | applyCompletionLanded id =>
    have hkeeps : KeepsUtxos (fun _ => False) _ _ ∧ _ := applyCompletionLanded_keeps h
    exact hkeeps.2
  | syncVaultUtxos observed m =>
    obtain ⟨v, hv, rfl⟩ := onVault_eq_ok.mp h
    obtain rfl := Except.ok.inj hv
    exact Vault.splits_sync observed m
  | setZeroConfHold txid hold =>
    obtain ⟨v, hv, rfl⟩ := onVault_eq_ok.mp h
    obtain rfl := Except.ok.inj hv
    rfl
  | _ => first | exact absurd rfl htouches | cases hop

end Ledger

namespace Liquidity

/-! ## Moves -/

/-- The transaction of a split with some script in its input. -/
def SignedFor (c : ShapingConfig) (s : Split) (bytes : Bytes) : Prop :=
  ∃ plan script, c.reconstruct s s.sourceAmount = .ok plan ∧
    bytes = ((Goldcoin.buildUnsignedSplitTx plan).withScript 0 script).serialize

/-- The bytes of a split are signed, and may be on the network. -/
def Shaper.Out (N : Shaper) (id : ℕ) (bytes : Bytes) : Prop :=
  ∃ s, N.split? id = some s ∧ s.state ≠ .built ∧ s.state ≠ .abandoned ∧
    (N.columns id).signedTx = some bytes

/-- What a driver does to a split of its own accord, between two points at which it
may be killed. -/
inductive Move (c : ShapingConfig) (id : ℕ) (N : Shaper) : Shaper → Prop
  | look (outcome : ShapingOutcome) (clock : ℕ) :
    Move c id N { N with outcome := outcome, clock := clock }
  | built {o : Outpoint} {amount fee : ℤ} {count : ℕ} {l : Ledger} {columns : SplitColumns}
    (hid : id = N.ledger.vault.splits.nextKey) (hcount : 2 ≤ count) (hunsigned : columns.signedTx = none)
    (h : N.ledger.step (.recordSplitBuilt o amount fee count) = some l) :
    Move c id N (Shaper.setColumns { N with ledger := l } id columns)
  | signed {s : Split} {bytes : Bytes} {l : Ledger} (hget : N.split? id = some s)
    (hsigned : SignedFor c s bytes) (h : N.ledger.step (.recordSplitSigned id) = some l) :
    Move c id N (Shaper.setColumns { N with ledger := l } id
      { N.columns id with signedTx := some bytes })
  | sent {bytes : Bytes} (answer : Option BroadcastOutcome) (hout : N.Out id bytes) :
    Move c id N { N with sent := ⟨id, bytes, answer⟩ :: N.sent }
  | broadcast {bytes : Bytes} {s : Split} {amounts : List ℤ} {l : Ledger}
    (hget : N.split? id = some s) (hbytes : (N.columns id).signedTx = some bytes)
    (hamounts : amounts.length = s.chunkCount)
    (h : N.ledger.step (.recordSplitBroadcast id (c.txidOf bytes) amounts) = some l) :
    Move c id N { N with ledger := l }
  | kept {op : Op} {l : Ledger}
    (hop : op = .recordSplitConfirmed id ∨ op = .readoptSplit id ∨ op = .clearSplitMissingInputs id ∨
      ∃ now, op = .setSplitMissingInputs id now)
    (h : N.ledger.step op = some l) : Move c id N { N with ledger := l }
  | released {s : Split} {l : Ledger} (reason : AbandonReason) (now : ℤ) (hget : N.split? id = some s)
    (hstate : s.state = .built) (h : N.ledger.step (.abandonSplit id none) = some l) :
    Move c id N (Shaper.setColumns { N with ledger := l } id
      { N.columns id with abandoned := some (reason, now) })

/-- What an operator's command does besides. -/
inductive LetGo (c : ShapingConfig) (id : ℕ) (N : Shaper) : Shaper → Prop
  | abandoned {s : Split} {observed : Option Txid} {l : Ledger} (now : ℤ) (hget : N.split? id = some s)
    (hstate : s.state ≠ .abandoned)
    (hobserved : ∀ txid ∈ observed,
      s.txid = some txid ∨ (N.columns id).signedTx.map c.txidOf = some txid)
    (h : N.ledger.step (.abandonSplit id observed) = some l) :
    LetGo c id N (Shaper.setColumns { N with ledger := l } id
      { N.columns id with abandoned := some (.operator, now) })

section Frame

variable {c : ShapingConfig} {N N' : Shaper} {id i : ℕ} {columns : SplitColumns}

@[simp] theorem columns_setColumns_self (N : Shaper) (id : ℕ) (columns : SplitColumns) :
    (N.setColumns id columns).columns id = columns := by
  simp [Shaper.setColumns]

theorem columns_setColumns_of_ne (N : Shaper) (columns : SplitColumns) (h : i ≠ id) :
    (N.setColumns id columns).columns i = N.columns i := by
  simp [Shaper.setColumns, h]

/-- The other splits are left alone. -/
structure Apart (id : ℕ) (N N' : Shaper) : Prop where
  split : ∀ i ≠ id, N'.split? i = N.split? i
  columns : ∀ i ≠ id, N'.columns i = N.columns i

theorem Apart.refl : Apart id N N := ⟨fun _ _ => rfl, fun _ _ => rfl⟩

theorem Apart.trans {N₁ : Shaper} (h : Apart id N N₁) (h' : Apart id N₁ N') : Apart id N N' where
  split i hi := (h'.split i hi).trans (h.split i hi)
  columns i hi := (h'.columns i hi).trans (h.columns i hi)

theorem split?_of_rewrites {op : Op} {l : Ledger} (h : N.ledger.RewritesSplit op id l) (hi : i ≠ id) :
    l.vault.splits.get? i = N.split? i := by
  obtain ⟨-, hsame⟩ | ⟨s, s', -, -, hsplits⟩ := h
  · exact hsame i
  · rw [hsplits, if_neg hi]
    rfl

theorem Move.apart (h : Move c id N N') : Apart id N N' := by
  cases h with
  | look => exact ⟨fun _ _ => rfl, fun _ _ => rfl⟩
  | @built _ _ _ _ l _ hid _ _ h =>
    obtain ⟨-, s, -, -, -, -, -, hsplits⟩ := Ledger.recordSplitBuilt_step h
    refine ⟨fun i hi => ?_, fun i hi => columns_setColumns_of_ne _ _ hi⟩
    change l.vault.splits.get? i = N.split? i
    rw [hsplits, Store.get?_push, if_neg (hid ▸ hi)]
    rfl
  | signed _ _ h =>
    exact ⟨fun i hi => split?_of_rewrites (Ledger.split_rewrite rfl h) hi,
      fun i hi => columns_setColumns_of_ne _ _ hi⟩
  | sent => exact ⟨fun _ _ => rfl, fun _ _ => rfl⟩
  | broadcast _ _ _ h =>
    exact ⟨fun i hi => split?_of_rewrites (Ledger.split_rewrite rfl h) hi, fun _ _ => rfl⟩
  | kept hop h =>
    refine ⟨fun i hi => split?_of_rewrites (Ledger.split_rewrite ?_ h) hi, fun _ _ => rfl⟩
    obtain rfl | rfl | rfl | ⟨now, rfl⟩ := hop <;> rfl
  | released _ _ _ _ h =>
    exact ⟨fun i hi => split?_of_rewrites (Ledger.split_rewrite rfl h) hi,
      fun i hi => columns_setColumns_of_ne _ _ hi⟩

theorem LetGo.apart (h : LetGo c id N N') : Apart id N N' := by
  cases h with
  | abandoned _ _ _ _ h =>
    exact ⟨fun i hi => split?_of_rewrites (Ledger.split_rewrite rfl h) hi,
      fun i hi => columns_setColumns_of_ne _ _ hi⟩

end Frame

/-! ## Soundness -/

/-- A row agrees with its columns. -/
structure RowSound (c : ShapingConfig) (s : Split) (columns : SplitColumns) : Prop where
  chunks : 2 ≤ s.chunkCount
  unsigned : s.state = .built → columns.signedTx = none
  kept : s.state = .signed ∨ s.state = .broadcast ∨ s.state = .confirmed → columns.signedTx.isSome
  flag : s.signed = columns.signedTx.isSome
  bytes : ∀ bytes ∈ columns.signedTx, SignedFor c s bytes
  recorded : s.state = .broadcast ∨ s.state = .confirmed → s.txid.isSome
  txid : ∀ txid ∈ s.txid, columns.signedTx.map c.txidOf = some txid
  letGo : s.state = .abandoned → ∃ reason since, columns.abandoned = some (reason, since) ∧
    (columns.signedTx.isSome → reason = .operator)

/-- The books of a split that was broadcast: the source is spent by this service,
and the chunks are in the pool. -/
def Recorded (v : Vault) (s : Split) : Prop :=
  (∃ u, v.utxos.get? s.source = some u ∧ u.state = .spent ∧ u.isMarked = true) ∧
    ∀ txid ∈ s.txid, ∀ i < s.chunkCount, (v.utxos.get? (txid, i)).isSome

/-- What holds of the splits at any time. -/
structure Sound (c : ShapingConfig) (N : Shaper) : Prop where
  wf : N.ledger.Wf
  rows : ∀ {id s}, N.split? id = some s → RowSound c s (N.columns id)
  sent : ∀ t ∈ N.sent, ∃ s, N.split? t.id = some s ∧ s.state ≠ .built ∧
    (N.columns t.id).signedTx = some t.bytes
  alone : ∀ {i j s t}, N.split? i = some s → N.split? j = some t → s.state ≠ .abandoned →
    t.state ≠ .abandoned → s.source = t.source → i = j
  books : ∀ {id s}, N.split? id = some s → s.state = .broadcast ∨ s.state = .confirmed →
    (N.columns id).abandoned = none → Recorded N.ledger.vault s

section Sound

variable {c : ShapingConfig} {N N' : Shaper} {id : ℕ}

/-- Outputs stay spent, and rows stay. -/
theorem recorded_of_step {op : Op} {l l' : Ledger} {s : Split} (hwf : l.Wf)
    (hsigned : ∀ id txid, op = .abandonSplit id (some txid) →
      ∀ x, l.vault.splits.get? id = some x → x.signed = true)
    (h : l.step op = some l') (hs : Recorded l.vault s) : Recorded l'.vault s := by
  have hrow {o : Outpoint} {u : VaultUtxo} (hget : l.vault.utxos.get? o = some u) :
      ∃ u', l'.vault.utxos.get? o = some u' ∧
        (u.state = .spent → u.isMarked = true → u'.state = .spent ∧ u'.isMarked = true) := by
    cases Ledger.vault_change hwf hsigned h with
    | kept _ utxos _ =>
      obtain ⟨u', hget', hkept⟩ := utxos.row hget
      exact ⟨u', hget', fun hspent hmarked => ⟨hkept.spent hspent (.inl hmarked), hkept.marked hmarked⟩⟩
    | took _ took _ =>
      refine ⟨_, by rw [took.rows, hget, Option.map_some], fun hspent hmarked => ?_⟩
      have hout : o ∉ _ := fun ho => by
        obtain ⟨u₀, hget₀, hfree⟩ := took.free o ho
        obtain rfl := Option.some.inj (hget.symm.trans hget₀)
        rw [hspent] at hfree
        obtain hfree | hfree := hfree <;> cases hfree
      rw [if_neg hout]
      exact ⟨hspent, hmarked⟩
    | split _ _ _ _ utxos _ => exact ⟨u, utxos ▸ hget, fun hspent hmarked => ⟨hspent, hmarked⟩⟩
  obtain ⟨⟨u, hget, hspent, hmarked⟩, hchunks⟩ := hs
  obtain ⟨u', hget', hkept⟩ := hrow hget
  refine ⟨⟨u', hget', hkept hspent hmarked⟩, fun txid htxid i hi => ?_⟩
  obtain ⟨chunk, hchunk⟩ := Option.isSome_iff_exists.mp (hchunks txid htxid i hi)
  obtain ⟨chunk', hchunk', -⟩ := hrow hchunk
  exact Option.isSome_iff_exists.mpr ⟨chunk', hchunk'⟩

/-- What a change of one row has to show. -/
structure Sound.Rewrites (c : ShapingConfig) (id : ℕ) (N N' : Shaper) : Prop where
  wf : N'.ledger.Wf
  sent : N'.sent = N.sent
  apart : Apart id N N'
  row : ∀ {s'}, N'.split? id = some s' → RowSound c s' (N'.columns id)
  bytes : ∀ {s}, N.split? id = some s → s.state ≠ .built →
    (∃ s', N'.split? id = some s' ∧ s'.state ≠ .built) ∧
      (N'.columns id).signedTx = (N.columns id).signedTx
  alone : ∀ {s'}, N'.split? id = some s' → s'.state ≠ .abandoned → ∀ j ≠ id, ∀ t,
    N.split? j = some t → t.state ≠ .abandoned → t.source ≠ s'.source
  books : ∀ {s'}, N'.split? id = some s' → s'.state = .broadcast ∨ s'.state = .confirmed →
    (N'.columns id).abandoned = none → Recorded N'.ledger.vault s'
  keeps : ∀ s, Recorded N.ledger.vault s → Recorded N'.ledger.vault s

theorem Sound.rewrites (hsound : Sound c N) (h : Sound.Rewrites c id N N') : Sound c N' where
  wf := h.wf
  rows {i s} hget := by
    by_cases hi : i = id
    · subst hi
      exact h.row hget
    · rw [h.apart.columns i hi]
      exact hsound.rows (h.apart.split i hi ▸ hget)
  sent t ht := by
    rw [h.sent] at ht
    obtain ⟨s, hget, hstate, hbytes⟩ := hsound.sent t ht
    by_cases hi : t.id = id
    · rw [hi] at hget hbytes ⊢
      obtain ⟨⟨s', hget', hstate'⟩, hkept⟩ := h.bytes hget hstate
      exact ⟨s', hget', hstate', hkept.trans hbytes⟩
    · exact ⟨s, (h.apart.split t.id hi).trans hget, hstate, by rw [h.apart.columns t.id hi, hbytes]⟩
  alone {i j s t} hi hj hs ht hsource := by
    by_cases hi' : i = id
    · by_cases hj' : j = id
      · rw [hi', hj']
      · rw [h.apart.split j hj'] at hj
        exact absurd hsource.symm (h.alone (hi' ▸ hi) hs j hj' t hj ht)
    · rw [h.apart.split i hi'] at hi
      by_cases hj' : j = id
      · exact absurd hsource (h.alone (hj' ▸ hj) ht i hi' s hi hs)
      · exact hsound.alone hi (h.apart.split j hj' ▸ hj) hs ht hsource
  books {i s} hget hstate hkept := by
    by_cases hi : i = id
    · subst hi
      exact h.books hget hstate hkept
    · rw [h.apart.columns i hi] at hkept
      exact h.keeps s (hsound.books (h.apart.split i hi ▸ hget) hstate hkept)

theorem setColumns_self (N : Shaper) (id : ℕ) (l : Ledger) :
    Shaper.setColumns { N with ledger := l } id (N.columns id) = { N with ledger := l } := by
  simp [Shaper.setColumns]

theorem SignedFor.of_figures {s s' : Split} {bytes : Bytes} (h : SignedFor c s bytes)
    (hfigures : s'.SameFigures s) : SignedFor c s' bytes := by
  obtain ⟨plan, script, hplan, hbytes⟩ := h
  refine ⟨plan, script, ?_, hbytes⟩
  rw [ShapingConfig.reconstruct, hfigures.source, hfigures.sourceAmount, hfigures.fee,
    hfigures.chunkCount]
  exact hplan

/-- A row that is rewritten: the row is sound again, its bytes are kept unless there
were none, and it is the only live one of its source. -/
theorem Sound.rewrite {op : Op} {l : Ledger} {columns : SplitColumns} (hsound : Sound c N)
    (hid : op.splitId = some id)
    (hobserved : ∀ txid, op = .abandonSplit id (some txid) →
      ∀ s, N.split? id = some s → s.signed = true)
    (h : N.ledger.step op = some l)
    (hrow : ∀ s s', N.split? id = some s → s'.SameFigures s → Split.Rewrite op s s' →
      RowSound c s' columns ∧
      (s.state ≠ .built → s'.state ≠ .built ∧ columns.signedTx = (N.columns id).signedTx) ∧
      (s'.state ≠ .abandoned → s.state ≠ .abandoned ∨ ¬ N.ledger.vault.AlreadySplit s.source) ∧
      (s'.state = .broadcast ∨ s'.state = .confirmed → columns.abandoned = none →
        Recorded l.vault s')) :
    Sound c (Shaper.setColumns { N with ledger := l } id columns) := by
  have hrewrites := Ledger.split_rewrite hid h
  have hkeeps : ∀ s, Recorded N.ledger.vault s → Recorded l.vault s := by
    refine fun s => recorded_of_step hsound.wf (fun i txid hop => ?_) h
    obtain rfl : i = id := by
      rw [hop] at hid
      exact Option.some.inj hid
    exact hobserved txid hop
  have hapart : Apart id N (Shaper.setColumns { N with ledger := l } id columns) :=
    ⟨fun i hi => split?_of_rewrites hrewrites hi, fun i hi => columns_setColumns_of_ne _ _ hi⟩
  obtain ⟨hnone, hsame⟩ | ⟨s, s', hget, hrw, hsplits⟩ := hrewrites
  · have hnone' : (Shaper.setColumns { N with ledger := l } id columns).split? id = none :=
      (hsame id).trans hnone
    refine hsound.rewrites
      { wf := hsound.wf.step h, sent := rfl, apart := hapart, keeps := hkeeps, row := ?_
        bytes := ?_, alone := ?_, books := ?_ }
    · intro s' hget
      rw [hnone'] at hget
      cases hget
    · intro s hget
      rw [Shaper.split?, hnone] at hget
      cases hget
    · intro s' hget
      rw [hnone'] at hget
      cases hget
    · intro s' hget
      rw [hnone'] at hget
      cases hget
  · have hfigures := hrw.figures
    obtain ⟨hsoundRow, hbytes, halone, hbooks⟩ := hrow s s' hget hfigures hrw
    have hget' : (Shaper.setColumns { N with ledger := l } id columns).split? id = some s' :=
      (hsplits id).trans (if_pos rfl)
    refine hsound.rewrites
      { wf := hsound.wf.step h, sent := rfl, apart := hapart, keeps := hkeeps, row := ?_
        bytes := ?_, alone := ?_, books := ?_ }
    · intro s₁ hget₁
      obtain rfl := Option.some.inj (hget'.symm.trans hget₁)
      rw [columns_setColumns_self]
      exact hsoundRow
    · intro s₁ hget₁ hstate
      obtain rfl := Option.some.inj (hget.symm.trans hget₁)
      obtain ⟨hstate', hkept⟩ := hbytes hstate
      exact ⟨⟨s', hget', hstate'⟩, by rw [columns_setColumns_self, hkept]⟩
    · intro s₁ hget₁ hstate j hj t hgetj htstate hsource
      obtain rfl := Option.some.inj (hget'.symm.trans hget₁)
      rw [hfigures.source] at hsource
      obtain hlive | hnew := halone hstate
      · exact hj (hsound.alone hgetj hget htstate hlive hsource)
      · exact hnew ⟨_, Store.mem_of_get? hgetj, hsource, htstate⟩
    · intro s₁ hget₁ hstate hkept
      obtain rfl := Option.some.inj (hget'.symm.trans hget₁)
      rw [columns_setColumns_self] at hkept
      exact hbooks hstate hkept

/-- A new row, of a source that has none. -/
theorem Sound.built {o : Outpoint} {amount fee : ℤ} {count : ℕ} {l : Ledger} {columns : SplitColumns}
    (hsound : Sound c N) (hid : id = N.ledger.vault.splits.nextKey) (hcount : 2 ≤ count)
    (hunsigned : columns.signedTx = none)
    (h : N.ledger.step (.recordSplitBuilt o amount fee count) = some l) :
    Sound c (Shaper.setColumns { N with ledger := l } id columns) := by
  obtain ⟨halone, x, hsource, hchunks, hstate, hflag, htxid, hsplits⟩ := Ledger.recordSplitBuilt_step h
  have hapart : Apart id N (Shaper.setColumns { N with ledger := l } id columns) := by
    refine ⟨fun i hi => ?_, fun i hi => columns_setColumns_of_ne _ _ hi⟩
    change l.vault.splits.get? i = N.split? i
    rw [hsplits, Store.get?_push, if_neg (hid ▸ hi)]
    rfl
  have hnew : (Shaper.setColumns { N with ledger := l } id columns).split? id = some x := by
    change l.vault.splits.get? id = some x
    rw [hsplits, Store.get?_push, if_pos hid]
  have hnone : N.split? id = none := hid ▸ Store.get?_nextKey
  refine hsound.rewrites
    { wf := hsound.wf.step h, sent := rfl, apart := hapart, row := ?_, bytes := ?_, alone := ?_
      books := ?_
      keeps := fun s => recorded_of_step hsound.wf (fun i txid hop => by cases hop) h }
  · intro s' hget
    obtain rfl := Option.some.inj (hnew.symm.trans hget)
    rw [columns_setColumns_self]
    exact
      { chunks := hchunks ▸ hcount
        unsigned := fun _ => hunsigned
        kept := fun hs => by simp [hstate] at hs
        flag := by rw [hflag, hunsigned, Option.isSome_none]
        bytes := fun bytes hbytes => by
          rw [hunsigned] at hbytes
          cases hbytes
        recorded := fun hs => by simp [hstate] at hs
        txid := fun txid hs => by
          rw [htxid] at hs
          cases hs
        letGo := fun hs => by
          rw [hstate] at hs
          cases hs }
  · intro s hget
    rw [hnone] at hget
    cases hget
  · intro s' hget _ j hj t hgetj htstate hsame
    obtain rfl := Option.some.inj (hnew.symm.trans hget)
    exact halone ⟨_, Store.mem_of_get? hgetj, hsame.trans hsource, htstate⟩
  · intro s' hget hs
    obtain rfl := Option.some.inj (hnew.symm.trans hget)
    simp [hstate] at hs

theorem Sound.signed {s : Split} {bytes : Bytes} {l : Ledger} (hsound : Sound c N)
    (hget : N.split? id = some s) (hsigned : SignedFor c s bytes)
    (h : N.ledger.step (.recordSplitSigned id) = some l) :
    Sound c (Shaper.setColumns { N with ledger := l } id
      { N.columns id with signedTx := some bytes }) := by
  refine hsound.rewrite rfl (fun txid hop => by cases hop) h fun s₁ s' hget₁ hfigures hrw => ?_
  obtain rfl := Option.some.inj (hget.symm.trans hget₁)
  have hrow := hsound.rows hget
  cases hrw with
  | signed hstate =>
    refine ⟨?_, fun hs => absurd hstate hs, fun _ => .inl (by simp [hstate]), fun hs => by simp at hs⟩
    exact
      { chunks := hrow.chunks
        unsigned := fun hs => by cases hs
        kept := fun _ => rfl
        flag := rfl
        bytes := fun bytes' hbytes => by
          obtain rfl := Option.some.inj hbytes
          exact hsigned.of_figures hfigures
        recorded := fun hs => by simp at hs
        txid := fun txid htxid => by
          have hnone := hrow.txid txid htxid
          rw [hrow.unsigned hstate] at hnone
          cases hnone
        letGo := fun hs => by cases hs }

theorem Sound.broadcast {s : Split} {bytes : Bytes} {amounts : List ℤ} {l : Ledger}
    (hsound : Sound c N) (hget : N.split? id = some s) (hbytes : (N.columns id).signedTx = some bytes)
    (hamounts : amounts.length = s.chunkCount)
    (h : N.ledger.step (.recordSplitBroadcast id (c.txidOf bytes) amounts) = some l) :
    Sound c { N with ledger := l } := by
  rw [← setColumns_self N id l]
  refine hsound.rewrite rfl (fun txid hop => by cases hop) h fun s₁ s' hget₁ hfigures hrw => ?_
  obtain rfl := Option.some.inj (hget.symm.trans hget₁)
  obtain ⟨s₀, u, hget₀, hu, hspent, hmarked, hchunks⟩ := Ledger.recordSplitBroadcast_step h
  obtain rfl := Option.some.inj (hget.symm.trans hget₀)
  have hrow := hsound.rows hget
  cases hrw with
  | broadcast hstate =>
    refine ⟨?_, fun _ => ⟨by simp, rfl⟩,
      fun _ => .inl (by obtain hs | hs := hstate <;> simp [hs]), fun _ _ => ?_⟩
    · exact
        { hrow with
          unsigned := fun hs => by cases hs
          kept := fun _ => by rw [hbytes]; rfl
          bytes := fun bytes' h' => (hrow.bytes bytes' h').of_figures hfigures
          recorded := fun _ => rfl
          txid := fun txid htxid => by rw [hbytes]; exact htxid
          letGo := fun hs => by cases hs }
    · refine ⟨⟨u, hu, hspent, hmarked⟩, fun txid htxid i hi => ?_⟩
      obtain rfl := Option.some.inj htxid
      exact hchunks i (hamounts ▸ hi)

/-- A row whose state stays. -/
theorem RowSound.of_state {s s' : Split} {columns : SplitColumns} (h : RowSound c s columns)
    (hfigures : s'.SameFigures s) (hstate : s'.state = s.state) (hsigned : s'.signed = s.signed)
    (htxid : s'.txid = s.txid) : RowSound c s' columns where
  chunks := hfigures.chunkCount ▸ h.chunks
  unsigned := hstate ▸ h.unsigned
  kept := hstate ▸ h.kept
  flag := hsigned.trans h.flag
  bytes bytes hbytes := (h.bytes bytes hbytes).of_figures hfigures
  recorded := hstate ▸ htxid ▸ h.recorded
  txid := htxid ▸ h.txid
  letGo := hstate ▸ h.letGo

theorem Recorded.of_figures {v : Vault} {s s' : Split} (h : Recorded v s) (hfigures : s'.SameFigures s)
    (htxid : s'.txid = s.txid) : Recorded v s' := by
  rw [Recorded, hfigures.source, hfigures.chunkCount, htxid]
  exact h

theorem Sound.confirmed {l : Ledger} (hsound : Sound c N)
    (h : N.ledger.step (.recordSplitConfirmed id) = some l) : Sound c { N with ledger := l } := by
  rw [← setColumns_self N id l]
  refine hsound.rewrite rfl (fun txid hop => by cases hop) h fun s s' hget hfigures hrw => ?_
  have hrow := hsound.rows hget
  cases hrw with
  | confirmed hstate =>
    refine ⟨?_, fun _ => ⟨by simp, rfl⟩, fun _ => .inl (by simp [hstate]), fun _ hkept => ?_⟩
    · exact
        { hrow with
          unsigned := fun hs => by cases hs
          kept := fun _ => hrow.kept (.inr (.inl hstate))
          bytes := fun bytes h' => (hrow.bytes bytes h').of_figures hfigures
          recorded := fun _ => hrow.recorded (.inl hstate)
          letGo := fun hs => by cases hs }
    · exact Recorded.of_figures (recorded_of_step hsound.wf (fun i txid hop => by cases hop) h
        (hsound.books hget (.inl hstate) hkept)) hfigures rfl

/-- The books of a split that is taken back may be open. -/
theorem Sound.readopted {l : Ledger} (hsound : Sound c N)
    (h : N.ledger.step (.readoptSplit id) = some l) : Sound c { N with ledger := l } := by
  rw [← setColumns_self N id l]
  refine hsound.rewrite rfl (fun txid hop => by cases hop) h fun s s' hget hfigures hrw => ?_
  have hrow := hsound.rows hget
  obtain ⟨s₁, hget₁, hfree⟩ := Ledger.readopt_alone h
  obtain rfl := Option.some.inj (hget.symm.trans hget₁)
  cases hrw with
  | readopted hstate htxid =>
    refine ⟨?_, fun _ => ⟨by simp, rfl⟩, fun _ => .inr hfree, fun _ hkept => ?_⟩
    · exact
        { hrow with
          unsigned := fun hs => by cases hs
          kept := fun _ => by
            obtain ⟨txid, htxid⟩ := Option.isSome_iff_exists.mp htxid
            have hbytes := hrow.txid txid htxid
            cases hsigned : (N.columns id).signedTx with
            | none =>
              rw [hsigned] at hbytes
              cases hbytes
            | some bytes => rfl
          bytes := fun bytes h' => (hrow.bytes bytes h').of_figures hfigures
          recorded := fun _ => htxid
          letGo := fun hs => by cases hs }
    · obtain ⟨reason, since, habandoned, -⟩ := hrow.letGo hstate
      rw [habandoned] at hkept
      cases hkept

/-- The note of missing inputs. -/
theorem Sound.flagged {op : Op} {l : Ledger} (hsound : Sound c N)
    (hop : op = .clearSplitMissingInputs id ∨ ∃ now, op = .setSplitMissingInputs id now)
    (h : N.ledger.step op = some l) : Sound c { N with ledger := l } := by
  rw [← setColumns_self N id l]
  have hid : op.splitId = some id := by obtain rfl | ⟨now, rfl⟩ := hop <;> rfl
  have hquiet (i : ℕ) (txid : Txid) (hab : op = .abandonSplit i (some txid)) : False := by
    obtain rfl | ⟨now, rfl⟩ := hop <;> cases hab
  refine hsound.rewrite hid (fun txid hab => (hquiet id txid hab).elim) h fun s s' hget hfigures hrw => ?_
  have hsame : s'.state = s.state ∧ s'.signed = s.signed ∧ s'.txid = s.txid := by
    obtain rfl | ⟨now, rfl⟩ := hop <;> cases hrw <;> exact ⟨rfl, rfl, rfl⟩
  obtain ⟨hstate, hsigned, htxid⟩ := hsame
  refine ⟨(hsound.rows hget).of_state hfigures hstate hsigned htxid, fun hs => ⟨hstate ▸ hs, rfl⟩,
    fun hs => .inl (hstate ▸ hs), fun hs hkept => Recorded.of_figures ?_ hfigures htxid⟩
  exact recorded_of_step hsound.wf (fun i txid hab => (hquiet i txid hab).elim) h
    (hsound.books hget (hstate ▸ hs) hkept)

/-- A split that is let go of: of its own accord only if it was not signed. -/
theorem Sound.abandoned {s : Split} {observed : Option Txid} {l : Ledger} {reason : AbandonReason}
    {now : ℤ} (hsound : Sound c N) (hget : N.split? id = some s) (hlive : s.state ≠ .abandoned)
    (hobserved : ∀ txid ∈ observed,
      s.txid = some txid ∨ (N.columns id).signedTx.map c.txidOf = some txid)
    (hreason : s.state ≠ .built → reason = .operator)
    (h : N.ledger.step (.abandonSplit id observed) = some l) :
    Sound c (Shaper.setColumns { N with ledger := l } id
      { N.columns id with abandoned := some (reason, now) }) := by
  have hrow := hsound.rows hget
  have htxid (txid : Txid) (h : (s.txid <|> observed) = some txid) :
      (N.columns id).signedTx.map c.txidOf = some txid := by
    cases hs : s.txid with
    | some txid' =>
      rw [hs] at h
      obtain rfl := Option.some.inj h
      exact hrow.txid _ hs
    | none =>
      rw [hs] at h
      obtain hs' | hbytes := hobserved txid h
      · rw [hs] at hs'
        cases hs'
      · exact hbytes
  refine hsound.rewrite rfl ?_ h fun s₁ s' hget₁ hfigures hrw => ?_
  · intro txid hop s₁ hget₁
    obtain rfl := Option.some.inj (hget.symm.trans hget₁)
    obtain rfl : observed = some txid := by
      injection hop
    have hbytes : (N.columns id).signedTx.map c.txidOf = some txid :=
      (hobserved txid rfl).elim (hrow.txid txid) fun hbytes => hbytes
    rw [hrow.flag, ← Option.isSome_map (f := c.txidOf), hbytes]
    rfl
  · obtain rfl := Option.some.inj (hget.symm.trans hget₁)
    cases hrw with
    | abandoned _ =>
      refine ⟨?_, fun _ => ⟨by simp, rfl⟩, fun hs => absurd rfl hs, fun hs => by simp at hs⟩
      exact
        { chunks := hrow.chunks
          unsigned := fun hs => by cases hs
          kept := fun hs => by simp at hs
          flag := hrow.flag
          bytes := fun bytes h' => (hrow.bytes bytes h').of_figures hfigures
          recorded := fun hs => by simp at hs
          txid := htxid
          letGo := fun _ => ⟨reason, now, rfl, fun hbytes => hreason fun hbuilt => by
            rw [hrow.unsigned hbuilt] at hbytes
            cases hbytes⟩ }
    | stays hdone => exact absurd hdone hlive

/-- What a driver does of its own accord keeps the splits sound. -/
theorem Sound.move (hsound : Sound c N) (h : Move c id N N') : Sound c N' := by
  cases h with
  | look => exact ⟨hsound.wf, hsound.rows, hsound.sent, hsound.alone, hsound.books⟩
  | built hid hcount hunsigned h => exact hsound.built hid hcount hunsigned h
  | signed hget hsigned h => exact hsound.signed hget hsigned h
  | @sent bytes answer hout =>
    refine ⟨hsound.wf, hsound.rows, fun t ht => ?_, hsound.alone, hsound.books⟩
    obtain rfl | ht := List.mem_cons.mp ht
    · obtain ⟨s, hget, hbuilt, -, hbytes⟩ := hout
      exact ⟨s, hget, hbuilt, hbytes⟩
    · exact hsound.sent t ht
  | broadcast hget hbytes hamounts h => exact hsound.broadcast hget hbytes hamounts h
  | kept hop h =>
    obtain rfl | rfl | hop := hop
    · exact hsound.confirmed h
    · exact hsound.readopted h
    · exact hsound.flagged hop h
  | released reason now hget hstate h =>
    exact hsound.abandoned hget (by simp [hstate]) (fun txid htxid => by cases htxid)
      (fun hs => absurd hstate hs) h

theorem Sound.letGo (hsound : Sound c N) (h : LetGo c id N N') : Sound c N' := by
  cases h with
  | abandoned now hget hstate hobserved h =>
    exact hsound.abandoned hget hstate hobserved (fun _ => rfl) h

/-- Any other transaction of the ledger. -/
theorem Sound.op {op : Op} {l : Ledger} (hsound : Sound c N) (hop : op.writesSplits = false)
    (h : N.ledger.step op = some l) : Sound c { N with ledger := l } := by
  have hsplits := Ledger.splits_eq hsound.wf hop h
  have hget {id : ℕ} : Shaper.split? { N with ledger := l } id = N.split? id :=
    congrArg (Store.get? · id) hsplits
  refine ⟨hsound.wf.step h, fun hs => hsound.rows (hget ▸ hs), fun t ht => ?_,
    fun hi hj => hsound.alone (hget ▸ hi) (hget ▸ hj), fun hs hstate hkept => ?_⟩
  · obtain ⟨s, hs, hrow⟩ := hsound.sent t ht
    exact ⟨s, hget.trans hs, hrow⟩
  · refine recorded_of_step hsound.wf (fun i txid hab => ?_) h (hsound.books (hget ▸ hs) hstate hkept)
    rw [hab] at hop
    cases hop

end Sound

end Liquidity

end Service
