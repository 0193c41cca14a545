-- SUMMARY: How each operation changes the vault: what every change keeps of an output and of a split, the outputs an operation takes, and the split it starts.
import ReserveBridge.Service.Ledger.Effects

/-!
# Changes of the vault

Whatever an operation does to the vault, an output that was reserved stays
reserved by the same request, and a split keeps its source. An operation takes
outputs that are free, or starts a split of one, or does neither.
-/

namespace Service
open Guard

/-! ## Outputs -/

/-- What is reserved is on its way out. -/
def VaultUtxo.Wf (u : VaultUtxo) : Prop := u.reservedBy.isSome → u.state = .reserved ∨ u.state = .spent

/-- An output that can be had was never reserved. -/
theorem VaultUtxo.Wf.reservedBy_eq_none {u : VaultUtxo} (h : u.Wf)
    (hfree : u.state = .available ∨ u.state = .unconfirmed) : u.reservedBy = none := by
  rw [← Option.not_isSome_iff_eq_none]
  intro hsome
  obtain hstate | hstate := h hsome <;> obtain hfree | hfree := hfree <;>
    · rw [hstate] at hfree
      cases hfree

/-- What no operation undoes of a row. A spend that was inferred from absence is
taken back when the output is reported again. -/
structure VaultUtxo.Kept (reported : Prop) (u u' : VaultUtxo) : Prop where
  reservedBy : u'.reservedBy = u.reservedBy
  marked : u.isMarked = true → u'.isMarked = true
  spent : u.state = .spent → u.isMarked = true ∨ ¬ reported → u'.state = .spent
  wf : u.Wf → u'.Wf

namespace VaultUtxo.Kept

variable {reported reported' : Prop} {u u₁ u' : VaultUtxo}

theorem refl : u.Kept reported u where
  reservedBy := rfl
  marked h := h
  spent h _ := h
  wf h := h

theorem trans (h₁ : u.Kept reported u₁) (h : u₁.Kept reported u') : u.Kept reported u' where
  reservedBy := h.reservedBy.trans h₁.reservedBy
  marked hm := h.marked (h₁.marked hm)
  spent hs hm := h.spent (h₁.spent hs hm) (hm.imp_left h₁.marked)
  wf hu := h.wf (h₁.wf hu)

/-- The row of a reported output. -/
theorem observe (x : ObservedUtxo) (m : ℤ) : u.Kept True (u.observe x m) where
  reservedBy := rfl
  marked h := h
  spent hs hm := by
    have hmarked : u.isMarked = true := by simpa using hm
    simp [VaultUtxo.observe, hs, hmarked]
  wf hu hsome := by
    have hmarked : u.isMarked = true := by
      rw [isMarked, Bool.or_eq_true]
      exact .inr hsome
    obtain hs | hs := hu hsome
    · exact .inl (by simp [VaultUtxo.observe, hs])
    · exact .inr (by simp [VaultUtxo.observe, hs, hmarked])

/-- A row that is taken for spent. -/
theorem spend (htxid : u.isMarked = true → u'.isMarked = true)
    (hreserved : u'.reservedBy = u.reservedBy) (hstate : u'.state = .spent) : u.Kept reported u' where
  reservedBy := hreserved
  marked := htxid
  spent _ _ := hstate
  wf _ _ := .inr hstate

end VaultUtxo.Kept

/-- Rows are kept, and new rows are nobody's. -/
structure KeepsUtxos (reported : Outpoint → Prop) (s s' : Store Outpoint VaultUtxo) : Prop where
  row : ∀ {o u}, s.get? o = some u → ∃ u', s'.get? o = some u' ∧ u.Kept (reported o) u'
  fresh : ∀ {o u'}, s.get? o = none → s'.get? o = some u' → u'.reservedBy = none

namespace KeepsUtxos

variable {reported : Outpoint → Prop} {s s₁ s' : Store Outpoint VaultUtxo} {k : Outpoint}

theorem refl : KeepsUtxos reported s s where
  row hget := ⟨_, hget, .refl⟩
  fresh hnone hget := by
    rw [hnone] at hget
    cases hget

theorem trans (h₁ : KeepsUtxos reported s s₁) (h : KeepsUtxos reported s₁ s') :
    KeepsUtxos reported s s' where
  row hget := by
    obtain ⟨u₁, hget₁, hkept₁⟩ := h₁.row hget
    obtain ⟨u', hget', hkept⟩ := h.row hget₁
    exact ⟨u', hget', hkept₁.trans hkept⟩
  fresh {o u'} hnone hget := by
    cases hget₁ : s₁.get? o with
    | none => exact h.fresh hget₁ hget
    | some u₁ =>
      obtain ⟨u₂, hget₂, hkept⟩ := h.row hget₁
      obtain rfl := Option.some.inj (hget₂.symm.trans hget)
      rw [hkept.reservedBy, h₁.fresh hnone hget₁]

/-- Every row is replaced by its image. -/
theorem mapValues {f : Outpoint → VaultUtxo → VaultUtxo}
    (hf : ∀ o u, VaultUtxo.Kept (reported o) u (f o u)) :
    KeepsUtxos reported s (s.mapValues f) where
  row {o u} hget := ⟨f o u, by rw [Store.get?_mapValues, hget, Option.map_some], hf o u⟩
  fresh hnone hget := by
    rw [Store.get?_mapValues, hnone] at hget
    cases hget

/-- One row is replaced by its image, or created. -/
theorem upsert {new : VaultUtxo} {f : VaultUtxo → VaultUtxo} (hnew : new.reservedBy = none)
    (hf : ∀ u, VaultUtxo.Kept (reported k) u (f u)) :
    KeepsUtxos reported s (s.upsert k new f) where
  row {o u} hget := by
    rw [Store.get?_upsert]
    by_cases hk : o = k
    · subst hk
      rw [if_pos rfl, hget]
      exact ⟨f u, rfl, hf u⟩
    · rw [if_neg hk]
      exact ⟨u, hget, .refl⟩
  fresh {o u'} hnone hget := by
    rw [Store.get?_upsert] at hget
    by_cases hk : o = k
    · subst hk
      rw [if_pos rfl, hnone] at hget
      obtain rfl := Option.some.inj hget
      exact hnew
    · rw [if_neg hk, hnone] at hget
      cases hget

/-- One row is replaced by its image. -/
theorem modify {f : VaultUtxo → VaultUtxo} (hf : ∀ u, VaultUtxo.Kept (reported k) u (f u)) :
    KeepsUtxos reported s (s.modify k f) where
  row {o u} hget := by
    rw [Store.get?_modify]
    by_cases hk : o = k
    · subst hk
      rw [if_pos rfl, hget]
      exact ⟨f u, rfl, hf u⟩
    · rw [if_neg hk]
      exact ⟨u, hget, .refl⟩
  fresh {o u'} hnone hget := by
    rw [Store.get?_modify, hnone] at hget
    split_ifs at hget
    cases hget

end KeepsUtxos

namespace Vault

variable {v : Vault} {reported : Outpoint → Prop}

/-- The rows of what is reported are written one after another, and then those
of what is missing. -/
theorem sync_keepsUtxos (observed : List ObservedUtxo) (m : ℤ) :
    KeepsUtxos (· ∈ observed.map ObservedUtxo.outpoint) v.utxos (v.sync observed m).utxos := by
  have loop : ∀ (xs : List ObservedUtxo) (v : Vault), xs ⊆ observed →
      KeepsUtxos (· ∈ observed.map ObservedUtxo.outpoint) v.utxos
        (xs.foldl (fun v o => v.observe o m) v).utxos := by
    intro xs
    induction xs with
    | nil => exact fun v _ => .refl
    | cons x xs ih =>
      intro v hsub
      have hmem : x.outpoint ∈ observed.map ObservedUtxo.outpoint :=
        List.mem_map_of_mem (hsub List.mem_cons_self)
      refine .trans (.upsert rfl fun u => ?_)
        (ih (v.observe x m) fun y hy => hsub (List.mem_cons_of_mem _ hy))
      simpa only [hmem] using VaultUtxo.Kept.observe x m
  refine (loop observed v fun _ h => h).trans ?_
  dsimp only [sync, inferSpent]
  refine .mapValues fun o u => ?_
  split_ifs
  · exact .spend (fun h => h) rfl rfl
  · exact .refl

theorem splits_sync (observed : List ObservedUtxo) (m : ℤ) :
    (v.sync observed m).splits = v.splits := by
  have loop : ∀ (xs : List ObservedUtxo) (v : Vault),
      (xs.foldl (fun v o => v.observe o m) v).splits = v.splits := by
    intro xs
    induction xs with
    | nil => exact fun v => rfl
    | cons x xs ih => exact fun v => ih (v.observe x m)
  exact loop observed v

theorem setZeroConfHold_keepsUtxos (txid : Txid) (hold : Bool) :
    KeepsUtxos reported v.utxos (v.setZeroConfHold txid hold).utxos := by
  dsimp only [setZeroConfHold]
  refine .mapValues fun o u => ?_
  split_ifs
  · exact ⟨rfl, fun h => h, fun h _ => h, fun h => h⟩
  · exact .refl

/-- What is reserved stays marked, whatever is written beside it. -/
theorem markSpent_keepsUtxos {selected : Outpoint → VaultUtxo → Bool} {txid : Option Txid}
    (h : ∀ o u, selected o u = true → u.reservedBy.isSome) :
    KeepsUtxos reported v.utxos (v.markSpent selected txid).utxos := by
  dsimp only [markSpent]
  refine .mapValues fun o u => ?_
  split_ifs with hu
  · exact .spend (fun _ => by simp [VaultUtxo.isMarked, h o u hu]) rfl rfl
  · exact .refl

theorem insertChunks_keepsUtxos (v : Vault) (txid : Txid) (amounts : List ℤ) :
    KeepsUtxos reported v.utxos (v.insertChunks txid amounts).utxos := by
  have loop : ∀ (xs : List (ℤ × ℕ)) (s : Store Outpoint VaultUtxo), KeepsUtxos reported s
      (xs.foldl (fun utxos a => utxos.upsert (txid, a.2) (.fresh a.1 0 .unconfirmed) id) s) := by
    intro xs
    induction xs with
    | nil => exact fun s => .refl
    | cons x xs ih => exact fun s => .trans (.upsert rfl fun u => .refl) (ih _)
  exact loop amounts.zipIdx v.utxos

theorem dropChunks_keepsUtxos (txid : Txid) :
    KeepsUtxos reported v.utxos (v.dropChunks txid).utxos := by
  dsimp only [dropChunks]
  refine .mapValues fun o u => ?_
  split_ifs
  · exact .spend (fun h => h) rfl rfl
  · exact .refl

end Vault

theorem VaultUtxo.Kept.spendBySplit {reported : Prop} (u : VaultUtxo) (txid : Txid) :
    u.Kept reported (u.spendBySplit txid) := by
  unfold VaultUtxo.spendBySplit
  split_ifs with hs
  · exact .spend (fun _ => rfl) rfl rfl
  · refine ⟨rfl, fun h => ?_, fun h _ => h, fun h => h⟩
    cases hb : u.spentBy <;> simp_all [VaultUtxo.isMarked]

/-! ## Outputs taken -/

/-- The row of an output reserved for a request. -/
def VaultUtxo.reserveFor (u : VaultUtxo) (id : ℕ) : VaultUtxo :=
  { u with state := .reserved, reservedBy := some id }

/-- All of `os` were free, and are reserved for the request now. Nothing else
changed. -/
structure Vault.Took (v : Vault) (id : ℕ) (os : List Outpoint) (v' : Vault) : Prop where
  splits : v'.splits = v.splits
  free : ∀ o ∈ os, ∃ u, v.utxos.get? o = some u ∧ (u.state = .available ∨ u.state = .unconfirmed)
  rows : ∀ o, v'.utxos.get? o =
    (v.utxos.get? o).map fun u => if o ∈ os then u.reserveFor id else u

namespace Vault.Took

variable {v v' : Vault} {id : ℕ} {o : Outpoint} {os : List Outpoint}

theorem nil : v.Took id [] v := ⟨rfl, by simp, by simp⟩

/-- The next output is taken before the others. It is not free again for
them. -/
theorem cons (hfree : ∃ u, v.utxos.get? o = some u ∧ (u.state = .available ∨ u.state = .unconfirmed))
    (h : (v.reserve id o).Took id os v') : v.Took id (o :: os) v' := by
  have hrow : ∀ k, (v.reserve id o).utxos.get? k =
      if k = o then (v.utxos.get? k).map (·.reserveFor id) else v.utxos.get? k :=
    fun k => Store.get?_modify _
  refine ⟨h.splits, fun k hk => ?_, fun k => ?_⟩
  · rcases List.mem_cons.mp hk with rfl | hk
    · exact hfree
    · obtain ⟨u, hget, hstate⟩ := h.free k hk
      rw [hrow] at hget
      by_cases hko : k = o
      · rw [if_pos hko] at hget
        obtain ⟨u₀, -, rfl⟩ := Option.map_eq_some_iff.mp hget
        obtain hstate | hstate := hstate <;> cases hstate
      · rw [if_neg hko] at hget
        exact ⟨u, hget, hstate⟩
  · rw [h.rows, hrow]
    by_cases hko : k = o
    · subst hko
      rw [if_pos rfl, Option.map_map]
      refine Option.map_congr fun u _ => ?_
      rw [Function.comp_apply, if_pos List.mem_cons_self]
      split_ifs <;> rfl
    · rw [if_neg hko]
      refine Option.map_congr fun u _ => ?_
      simp only [List.mem_cons, hko, false_or]

end Vault.Took

namespace Vault

variable {v v' : Vault} {id : ℕ} {os : List Outpoint}

theorem reserveAvailable_took (h : v.reserveAvailable id os = .ok v') : v.Took id os v' := by
  induction os generalizing v with
  | nil =>
    obtain rfl : v = v' := Except.ok.inj h
    exact .nil
  | cons o os ih =>
    simp only [reserveAvailable, bind_eq_ok, require_eq_ok, exists_unit] at h
    obtain ⟨hfree, h⟩ := h
    obtain ⟨u, hget, hstate⟩ := (Option.any_eq_true _ _).mp hfree
    exact .cons ⟨u, hget, .inl (by simpa using hstate)⟩ (ih h)

/-- Besides, none of the outputs is claimed by a split. -/
theorem reserveSelected_took {depth : ℤ} (h : v.reserveSelected id depth os = .ok v') :
    v.Took id os v' ∧ ∀ o ∈ os, ¬ v.LiveSplitClaim o := by
  induction os generalizing v with
  | nil =>
    obtain rfl : v = v' := Except.ok.inj h
    exact ⟨.nil, by simp⟩
  | cons o os ih =>
    simp only [reserveSelected, bind_eq_ok, require_eq_ok, exists_unit] at h
    obtain ⟨⟨u, hget, hfree, hunclaimed⟩, h⟩ := h
    obtain ⟨htook, hrest⟩ := ih h
    refine ⟨.cons ⟨u, hget, hfree.imp_right fun h => h.2.1⟩ htook, fun k hk => ?_⟩
    rcases List.mem_cons.mp hk with rfl | hk
    · exact hunclaimed
    · exact hrest k hk

end Vault

/-! ## Splits -/

namespace Split

/-- It can still be broadcast: it is live, or its transaction is signed. -/
def isHolding (s : Split) : Bool := s.state.isLive || s.signed

/-- What may be on the network is signed. -/
structure Wf (s : Split) : Prop where
  state : s.state ≠ .built → s.state ≠ .abandoned → s.signed = true
  txid : s.txid.isSome → s.signed = true

/-- What no operation undoes of a row. A split that is over never begins
again. -/
structure Kept (s s' : Split) : Prop where
  source : s'.source = s.source
  wf : s.Wf → s'.Wf
  holding : s.Wf → s'.isHolding = true → s.isHolding = true

namespace Kept

variable {s s' : Split}

theorem refl : s.Kept s := ⟨rfl, fun h => h, fun _ h => h⟩

/-- A split whose transaction is signed may become whatever it likes. -/
theorem of_signed (source : s'.source = s.source) (signed : s'.signed = s.signed)
    (h : s.Wf → s.signed = true) : s.Kept s' where
  source := source
  wf hwf := ⟨fun _ _ => signed.trans (h hwf), fun _ => signed.trans (h hwf)⟩
  holding hwf _ := by simp [isHolding, h hwf]

end Kept

end Split

/-- Every split was there, and was kept. -/
def KeepsSplits (s s' : Store ℕ Split) : Prop :=
  ∀ i x', s'.get? i = some x' → ∃ x, s.get? i = some x ∧ x.Kept x'

namespace Vault

variable {v v' : Vault} {id : ℕ} {x x' : Split}

theorem keepsSplits_refl : KeepsSplits v.splits v.splits := fun _ x hget => ⟨x, hget, .refl⟩

theorem modify_keepsSplits {f : Split → Split} (hf : ∀ x, v.splits.get? id = some x → x.Kept (f x)) :
    KeepsSplits v.splits (v.splits.modify id f) := by
  intro i x' hget
  rw [Store.get?_modify] at hget
  split_ifs at hget with hi
  · subst hi
    obtain ⟨x, hx, rfl⟩ := Option.map_eq_some_iff.mp hget
    exact ⟨x, hx, hf x hx⟩
  · exact ⟨x', hget, .refl⟩

theorem setSplit_keepsSplits (hget : v.splits.get? id = some x) (h : x.Kept x') :
    KeepsSplits v.splits (v.setSplit id x').splits :=
  modify_keepsSplits fun x₁ hx₁ => by
    obtain rfl := Option.some.inj (hget.symm.trans hx₁)
    exact h

@[simp] theorem split_eq_ok : v.split id = .ok x ↔ v.splits.get? id = some x := orFail_eq_ok

theorem recordSplitSigned_keeps (h : v.recordSplitSigned id = .ok v') :
    v'.utxos = v.utxos ∧ KeepsSplits v.splits v'.splits := by
  simp only [recordSplitSigned, bind_eq_ok, split_eq_ok, require_eq_ok, exists_unit, pure_eq_ok] at h
  obtain ⟨x, hget, hstate, rfl⟩ := h
  refine ⟨rfl, setSplit_keepsSplits hget ⟨rfl, fun _ => ⟨fun _ _ => rfl, fun _ => rfl⟩, fun _ _ => ?_⟩⟩
  simp [Split.isHolding, SplitState.isLive, hstate]

/-- The source is marked, and the chunks are rows of nobody. -/
theorem recordSplitBroadcast_keeps {txid : Txid} {amounts : List ℤ}
    (h : v.recordSplitBroadcast id txid amounts = .ok v') :
    KeepsUtxos reported v.utxos v'.utxos ∧ KeepsSplits v.splits v'.splits := by
  simp only [recordSplitBroadcast, bind_eq_ok, split_eq_ok, require_eq_ok, exists_unit,
    orFail_eq_ok, pure_eq_ok] at h
  obtain ⟨x, hget, hstate, u, -, -, rfl⟩ := h
  constructor
  · refine .trans ?_ (insertChunks_keepsUtxos _ txid amounts)
    exact .modify fun u => .spendBySplit u txid
  · refine setSplit_keepsSplits hget (.of_signed rfl rfl fun hwf => hwf.state ?_ ?_) <;>
      obtain hstate | hstate := hstate <;> simp [hstate]

theorem recordSplitConfirmed_keeps (h : v.recordSplitConfirmed id = .ok v') :
    v'.utxos = v.utxos ∧ KeepsSplits v.splits v'.splits := by
  simp only [recordSplitConfirmed, bind_eq_ok, split_eq_ok, require_eq_ok, exists_unit,
    pure_eq_ok] at h
  obtain ⟨x, hget, hstate, rfl⟩ := h
  exact ⟨rfl, setSplit_keepsSplits hget
    (.of_signed rfl rfl fun hwf => hwf.state (by simp [hstate]) (by simp [hstate]))⟩

/-- A txid is known of signed bytes only. -/
theorem abandonSplit_keeps {observed : Option Txid}
    (hsigned : observed.isSome → ∀ x, v.splits.get? id = some x → x.signed = true)
    (h : v.abandonSplit id observed = .ok v') :
    KeepsUtxos reported v.utxos v'.utxos ∧ KeepsSplits v.splits v'.splits := by
  simp only [abandonSplit, bind_eq_ok, split_eq_ok] at h
  obtain ⟨x, hget, h⟩ := h
  by_cases hdone : x.state = .abandoned
  · rw [if_pos hdone, pure_eq_ok] at h
    exact h ▸ ⟨.refl, keepsSplits_refl⟩
  rw [if_neg hdone] at h
  simp only [bind_eq_ok, require_eq_ok, exists_unit, pure_eq_ok] at h
  obtain ⟨-, rfl⟩ := h
  have hkept : x.Kept { x with state := .abandoned, txid := x.txid <|> observed } := by
    refine ⟨rfl, fun hwf => ⟨fun _ hne => absurd rfl hne, fun hsome => ?_⟩, fun _ hs => ?_⟩
    · cases htxid : x.txid with
      | some txid => exact hwf.txid (by rw [htxid]; rfl)
      | none =>
        rw [htxid] at hsome
        exact hsigned hsome x hget
    · -- an abandoned split holds by its signature alone
      have hx : x.signed = true := by simpa [Split.isHolding, SplitState.isLive] using hs
      simp [Split.isHolding, hx]
  have hsplits := setSplit_keepsSplits hget hkept
  split
  · exact ⟨dropChunks_keepsUtxos _, hsplits⟩
  · exact ⟨.refl, hsplits⟩

theorem readoptSplit_keeps (h : v.readoptSplit id = .ok v') :
    v'.utxos = v.utxos ∧ KeepsSplits v.splits v'.splits := by
  simp only [readoptSplit, bind_eq_ok, split_eq_ok, require_eq_ok, exists_unit, pure_eq_ok] at h
  obtain ⟨x, hget, hstate, -, rfl⟩ := h
  exact ⟨rfl, setSplit_keepsSplits hget (.of_signed rfl rfl fun hwf => hwf.txid hstate.2)⟩

theorem setSplitMissingInputs_keeps (now : ℤ) :
    KeepsSplits v.splits (v.setSplitMissingInputs id now).splits := by
  refine modify_keepsSplits fun x _ => ?_
  split_ifs
  · exact ⟨rfl, fun h => ⟨h.state, h.txid⟩, fun _ h => h⟩
  · exact .refl

theorem clearSplitMissingInputs_keeps :
    KeepsSplits v.splits (v.clearSplitMissingInputs id).splits :=
  modify_keepsSplits fun _ _ => ⟨rfl, fun h => ⟨h.state, h.txid⟩, fun _ h => h⟩

end Vault

/-! ## Changes of the vault -/

namespace Op

/-- The request an operation takes outputs for, and the outputs. -/
def takes : Op → Option (ℕ × List Outpoint)
  | .beginGoldcoinRefund id _ inputs _ => some (id, inputs)
  | .reserveVaultUtxos id selected _ => some (id, selected)
  | .buildPayout id plan _ => some (id, plan.inputs)
  | _ => none

/-- What takes outputs writes the vault. -/
theorem takes_eq_none {op : Op} (h : op.touchesVault = false) : op.takes = none := by
  cases op <;> first | rfl | cases h

/-- The outputs the node reports unspent. -/
def reported : Op → List Outpoint
  | .syncVaultUtxos observed _ => observed.map ObservedUtxo.outpoint
  | _ => []

end Op

/-- What an operation does to outputs and splits. -/
inductive Vault.Change (op : Op) (v v' : Vault) : Prop
  | kept (quiet : op.takes = none) (utxos : KeepsUtxos (· ∈ op.reported) v.utxos v'.utxos)
    (splits : KeepsSplits v.splits v'.splits)
  | took {id : ℕ} {os : List Outpoint} (hop : op.takes = some (id, os)) (took : v.Took id os v')
    (unclaimed : (∃ amount note, op = .beginGoldcoinRefund id amount os note) ∨
      ∀ o ∈ os, ¬ v.LiveSplitClaim o)
  | split {source : Outpoint} {amount fee : ℤ} {count : ℕ} {x : Split}
    (hop : op = .recordSplitBuilt source amount fee count)
    (free : ∃ u, v.utxos.get? source = some u ∧ u.state = .available)
    (unsplit : ¬ v.AlreadySplit source)
    (built : x.source = source ∧ x.state = .built ∧ x.signed = false ∧ x.txid = none)
    (utxos : v'.utxos = v.utxos) (splits : v'.splits = v.splits.push x)

namespace Ledger

variable {op : Op} {l l' : Ledger} {id : ℕ}

/-- The vault of a completion: what the request had reserved is spent. -/
theorem goldcoinCompletionConfirmed_keeps {submitted : Bool} {reported : Outpoint → Prop}
    (h : l.goldcoinCompletionConfirmed id submitted = .ok l') :
    KeepsUtxos reported l.vault.utxos l'.vault.utxos ∧ l'.vault.splits = l.vault.splits := by
  obtain ⟨r, -, ⟨rfl, -⟩ | ⟨-, -, txid, rfl⟩⟩ := goldcoinCompletionConfirmed_cases h
  · exact ⟨.refl, rfl⟩
  · refine ⟨Vault.markSpent_keepsUtxos fun o u hu => ?_, rfl⟩
    have hu : u.reservedBy = some id := by simpa using hu
    rw [hu]
    rfl

theorem applyCompletionLanded_keeps {reported : Outpoint → Prop}
    (h : l.applyCompletionLanded id = .ok l') :
    KeepsUtxos reported l.vault.utxos l'.vault.utxos ∧ l'.vault.splits = l.vault.splits := by
  simp only [applyCompletionLanded, reconcileGoldcoinCompletionFromChain, bind_eq_ok,
    request_eq_ok, require_eq_ok, exists_unit] at h
  obtain ⟨r, -, -, r', -, h⟩ := h
  by_cases hdone : r'.state = .settled
  · rw [if_pos hdone, pure_eq_ok] at h
    exact h ▸ ⟨.refl, rfl⟩
  · rw [if_neg hdone] at h
    simp only [bind_eq_ok, require_eq_ok, exists_unit] at h
    exact goldcoinCompletionConfirmed_keeps h.2

theorem recordGoldcoinRefundBroadcast_keeps {txid : Txid} {reported : Outpoint → Prop}
    (h : l.recordGoldcoinRefundBroadcast id txid = .ok l') :
    KeepsUtxos reported l.vault.utxos l'.vault.utxos ∧ l'.vault.splits = l.vault.splits := by
  simp only [recordGoldcoinRefundBroadcast, bind_eq_ok, request_eq_ok, orFail_eq_ok] at h
  obtain ⟨r, -, f, -, h⟩ := h
  split at h
  · simp only [bind_eq_ok, require_eq_ok, exists_unit, pure_eq_ok] at h
    exact h.2 ▸ ⟨.refl, rfl⟩
  · simp only [bind_eq_ok, require_eq_ok, exists_unit, pure_eq_ok] at h
    obtain ⟨-, rfl⟩ := h
    refine ⟨Vault.markSpent_keepsUtxos fun o u hu => ?_, rfl⟩
    have hu : u.reservedBy = some id := (of_decide_eq_true hu).2.2
    rw [hu]
    rfl

theorem recordGoldcoinPayoutBroadcast_keeps {txid : Txid}
    (h : l.recordGoldcoinPayoutBroadcast id txid = .ok l') :
    l'.vault.utxos = l.vault.utxos ∧ l'.vault.splits = l.vault.splits := by
  simp only [recordGoldcoinPayoutBroadcast, bind_eq_ok, request_eq_ok, orFail_eq_ok] at h
  obtain ⟨r, -, p, -, h⟩ := h
  by_cases hsent : p.state = .broadcast ∨ p.state = .confirmed ∨ p.state = .completed
  · rw [if_pos hsent, pure_eq_ok] at h
    exact h ▸ ⟨rfl, rfl⟩
  · rw [if_neg hsent] at h
    simp only [bind_eq_ok, require_eq_ok, exists_unit, pure_eq_ok] at h
    obtain ⟨-, -, rfl⟩ := h
    exact ⟨rfl, rfl⟩

theorem beginGoldcoinRefund_took {amount : ℕ} {inputs : List Outpoint} {note : String}
    (h : l.beginGoldcoinRefund id amount inputs note = .ok l') : l.vault.Took id inputs l'.vault := by
  simp only [beginGoldcoinRefund, bind_eq_ok, request_eq_ok, require_eq_ok, exists_unit,
    pure_eq_ok] at h
  obtain ⟨-, -, -, r, -, -, -, -, -, -, -, -, -, -, -, vault, hvault, rfl⟩ := h
  exact Vault.reserveAvailable_took hvault

theorem reserveVaultUtxos_took {selected : List Outpoint} {depth : ℤ}
    (h : l.reserveVaultUtxos id selected depth = .ok l') :
    l.vault.Took id selected l'.vault ∧ ∀ o ∈ selected, ¬ l.vault.LiveSplitClaim o := by
  obtain ⟨_, -, -, vault, hvault, rfl⟩ := reserveVaultUtxos_eq_ok.mp h
  exact Vault.reserveSelected_took hvault

theorem buildPayout_took {plan : PayoutPlan} {depth : ℤ}
    (h : l.buildPayout id plan depth = .ok l') :
    l.vault.Took id plan.inputs l'.vault ∧ ∀ o ∈ plan.inputs, ¬ l.vault.LiveSplitClaim o := by
  simp only [buildPayout, bind_eq_ok] at h
  obtain ⟨l₁, hreserved, h⟩ := h
  simp only [recordGoldcoinPayoutBuilt, bind_eq_ok, request_eq_ok, require_eq_ok, exists_unit,
    pure_eq_ok] at h
  obtain ⟨r, -, -, -, -, rfl⟩ := h
  have htook := reserveVaultUtxos_took hreserved
  exact ⟨⟨htook.1.splits, htook.1.free, htook.1.rows⟩, htook.2⟩

theorem onVault_eq_ok {x : Except LedgerError Vault} :
    l.onVault x = .ok l' ↔ ∃ v, x = .ok v ∧ { l with vault := v } = l' := map_eq_ok

/-- The change of a step. The txid a split is abandoned with is that of its
signed bytes. -/
theorem vault_change (hwf : l.Wf)
    (hsigned : ∀ id txid, op = .abandonSplit id (some txid) →
      ∀ x, l.vault.splits.get? id = some x → x.signed = true)
    (h : l.step op = some l') : l.vault.Change op l'.vault := by
  by_cases hop : op.touchesVault = false
  · have hvault := (effect_of_step hwf h).vault_eq hop
    exact .kept (Op.takes_eq_none hop) (hvault ▸ .refl) (hvault ▸ Vault.keepsSplits_refl)
  rw [step, toOption_eq_some] at h
  -- what writes outputs only, and what writes splits only
  have utxos : op.takes = none → KeepsUtxos (· ∈ op.reported) l.vault.utxos l'.vault.utxos →
      l'.vault.splits = l.vault.splits → l.vault.Change op l'.vault :=
    fun quiet h hs => .kept quiet h (hs ▸ Vault.keepsSplits_refl)
  have splits : op.takes = none → l'.vault.utxos = l.vault.utxos →
      KeepsSplits l.vault.splits l'.vault.splits → l.vault.Change op l'.vault :=
    fun quiet hu h => .kept quiet (hu ▸ .refl) h
  cases op with
  | beginGoldcoinRefund id amount inputs note =>
    exact .took rfl (beginGoldcoinRefund_took h) (.inl ⟨amount, note, rfl⟩)
  | recordGoldcoinRefundBroadcast id txid =>
    obtain ⟨hu, hs⟩ := recordGoldcoinRefundBroadcast_keeps h
    exact utxos rfl hu hs
  | reserveVaultUtxos id selected depth =>
    obtain ⟨htook, hunclaimed⟩ := reserveVaultUtxos_took h
    exact .took rfl htook (.inr hunclaimed)
  | buildPayout id plan depth =>
    obtain ⟨htook, hunclaimed⟩ := buildPayout_took h
    exact .took rfl htook (.inr hunclaimed)
  | recordGoldcoinPayoutBroadcast id txid =>
    obtain ⟨hu, hs⟩ := recordGoldcoinPayoutBroadcast_keeps h
    exact utxos rfl (hu ▸ .refl) hs
  | markGoldcoinCompletionConfirmed id =>
    obtain ⟨hu, hs⟩ := goldcoinCompletionConfirmed_keeps h
    exact utxos rfl hu hs
  | applyCompletionLanded id =>
    obtain ⟨hu, hs⟩ := applyCompletionLanded_keeps h
    exact utxos rfl hu hs
  | syncVaultUtxos observed m =>
    obtain ⟨v, hv, rfl⟩ := onVault_eq_ok.mp h
    obtain rfl := Except.ok.inj hv
    refine utxos rfl (Vault.sync_keepsUtxos observed m) ?_
    exact Vault.splits_sync observed m
  | setZeroConfHold txid hold =>
    obtain ⟨v, hv, rfl⟩ := onVault_eq_ok.mp h
    obtain rfl := Except.ok.inj hv
    exact utxos rfl (Vault.setZeroConfHold_keepsUtxos txid hold) rfl
  | recordSplitBuilt source amount fee count =>
    obtain ⟨v, hv, rfl⟩ := onVault_eq_ok.mp h
    simp only [Vault.recordSplitBuilt, bind_eq_ok, require_eq_ok, exists_unit, orFail_eq_ok,
      pure_eq_ok] at hv
    obtain ⟨hunsplit, u, hget, hstate, rfl⟩ := hv
    exact .split rfl ⟨u, hget, hstate⟩ hunsplit ⟨rfl, rfl, rfl, rfl⟩ rfl rfl
  | recordSplitSigned id =>
    obtain ⟨v, hv, rfl⟩ := onVault_eq_ok.mp h
    obtain ⟨hu, hs⟩ := Vault.recordSplitSigned_keeps hv
    exact splits rfl hu hs
  | recordSplitBroadcast id txid amounts =>
    obtain ⟨v, hv, rfl⟩ := onVault_eq_ok.mp h
    obtain ⟨hu, hs⟩ := Vault.recordSplitBroadcast_keeps hv
    exact .kept rfl hu hs
  | recordSplitConfirmed id =>
    obtain ⟨v, hv, rfl⟩ := onVault_eq_ok.mp h
    obtain ⟨hu, hs⟩ := Vault.recordSplitConfirmed_keeps hv
    exact splits rfl hu hs
  | abandonSplit id observed =>
    obtain ⟨v, hv, rfl⟩ := onVault_eq_ok.mp h
    have hobserved : observed.isSome → ∀ x, l.vault.splits.get? id = some x → x.signed = true := by
      intro hsome
      obtain ⟨txid, rfl⟩ := Option.isSome_iff_exists.mp hsome
      exact hsigned id txid rfl
    obtain ⟨hu, hs⟩ := Vault.abandonSplit_keeps hobserved hv
    exact .kept rfl hu hs
  | readoptSplit id =>
    obtain ⟨v, hv, rfl⟩ := onVault_eq_ok.mp h
    obtain ⟨hu, hs⟩ := Vault.readoptSplit_keeps hv
    exact splits rfl hu hs
  | setSplitMissingInputs id now =>
    obtain ⟨v, hv, rfl⟩ := onVault_eq_ok.mp h
    obtain rfl := Except.ok.inj hv
    exact splits rfl rfl (Vault.setSplitMissingInputs_keeps now)
  | clearSplitMissingInputs id =>
    obtain ⟨v, hv, rfl⟩ := onVault_eq_ok.mp h
    obtain rfl := Except.ok.inj hv
    exact splits rfl rfl Vault.clearSplitMissingInputs_keeps
  | _ => exact absurd rfl hop

end Ledger

end Service
