-- SUMMARY: The Goldcoin vault: the sync with the outputs the node reports, the reservation of inputs for a payout, and the lifecycle of a split.
import ReserveBridge.Service.Ledger.Payouts

/-!
# The vault

The outputs the vault owns, who has taken which of them, and the splits that
cut large outputs into small ones. A split claims its source by its row alone,
payouts and refunds mark the output reserved.
-/

namespace Service
open Guard

/-! ## Sync -/

/-- An output the node reports unspent. -/
structure ObservedUtxo where
  outpoint : Outpoint
  amount : ℤ
  confirmations : ℤ

/-- The state an output is reported in. -/
def ObservedUtxo.state (o : ObservedUtxo) (minConfirmations : ℤ) : VaultUtxoState :=
  if minConfirmations ≤ o.confirmations then .available else .unconfirmed

namespace VaultUtxo

/-- A row that nothing has taken yet. -/
def fresh (amount confirmations : ℤ) (state : VaultUtxoState) : VaultUtxo where
  amount := amount
  confirmations := confirmations
  state := state
  reservedBy := none
  spentBy := none
  zeroConfHold := false

/-- Spent by a transaction of this service, or once reserved for one. -/
def isMarked (u : VaultUtxo) : Bool := u.spentBy.isSome || u.reservedBy.isSome

/-- The update of a row that is reported unspent. A spend inferred from absence
is taken back. -/
def observe (u : VaultUtxo) (o : ObservedUtxo) (minConfirmations : ℤ) : VaultUtxo :=
  { u with
    confirmations := o.confirmations
    state :=
      if u.state = .reserved then .reserved
      else if u.state = .spent ∧ u.isMarked then .spent
      else o.state minConfirmations }

/-- The mark a broadcast split leaves on its source. -/
def spendBySplit (u : VaultUtxo) (txid : Txid) : VaultUtxo :=
  if u.state = .available then { u with state := .spent, spentBy := some txid }
  else { u with spentBy := u.spentBy <|> some txid }

end VaultUtxo

namespace Vault

/-- `INSERT INTO vault_utxos … ON CONFLICT DO UPDATE`. -/
def observe (v : Vault) (o : ObservedUtxo) (minConfirmations : ℤ) : Vault :=
  { v with
    utxos := v.utxos.upsert o.outpoint
      (.fresh o.amount o.confirmations (o.state minConfirmations))
      fun u => u.observe o minConfirmations }

/-- The txid is that of a split in state `broadcast`. -/
def IsBroadcastSplit (v : Vault) (txid : Txid) : Prop :=
  ∃ s ∈ v.splits.entries, s.2.txid = some txid ∧ s.2.state = .broadcast

instance (v : Vault) (txid : Txid) : Decidable (v.IsBroadcastSplit txid) :=
  inferInstanceAs (Decidable (∃ s ∈ v.splits.entries, _))

/-- Infer that what is tracked as unspent and was not reported is spent. -/
def inferSpent (v : Vault) (present : List Outpoint) : Vault :=
  { v with utxos := v.utxos.mapValues fun o u =>
      if (u.state = .available ∨ u.state = .unconfirmed) ∧ (∀ p ∈ present, p ≠ o) ∧
          ¬ v.IsBroadcastSplit o.1 then
        { u with state := .spent }
      else u }

/-- `sync_vault_utxos`. -/
def sync (v : Vault) (observed : List ObservedUtxo) (minConfirmations : ℤ) : Vault :=
  (observed.foldl (fun v o => v.observe o minConfirmations) v).inferSpent
    (observed.map ObservedUtxo.outpoint)

/-- `set_zero_conf_hold`. -/
def setZeroConfHold (v : Vault) (txid : Txid) (hold : Bool) : Vault :=
  { v with utxos := v.utxos.mapValues fun o u =>
      if o.1 = txid ∧ u.state = .unconfirmed then { u with zeroConfHold := hold } else u }

/-! ## Reservation for a payout -/

/-- What `reserve_vault_utxos` may take: an available output, or unconfirmed
change of a payout within the depth allowed. -/
def Reservable (v : Vault) (depth : ℤ) (o : Outpoint) (u : VaultUtxo) : Prop :=
  (u.state = .available ∨
    (0 < depth ∧ u.state = .unconfirmed ∧ u.zeroConfHold = false ∧
      ∃ c ∈ v.changeOutpoints, c.outpoint = o ∧ (1 ≤ u.confirmations ∨ c.depth ≤ depth))) ∧
  ¬ v.LiveSplitClaim o

instance (v : Vault) (depth : ℤ) (o : Outpoint) (u : VaultUtxo) : Decidable (v.Reservable depth o u) :=
  inferInstanceAs (Decidable (_ ∧ _))

/-- `reserve_vault_utxos`: all of the selection or none. -/
def reserveSelected (v : Vault) (id : ℕ) (depth : ℤ) : List Outpoint → Except LedgerError Vault
  | [] => .ok v
  | o :: rest => do
    require (∃ u ∈ v.utxos.get? o, v.Reservable depth o u) .vaultUtxoUnavailable
    (v.reserve id o).reserveSelected id depth rest

/-! ## Splits -/

/-- The partial unique index: one split of an outpoint that is not abandoned. -/
def AlreadySplit (v : Vault) (o : Outpoint) : Prop :=
  ∃ s ∈ v.splits.entries, s.2.source = o ∧ s.2.state ≠ .abandoned

instance (v : Vault) (o : Outpoint) : Decidable (v.AlreadySplit o) :=
  inferInstanceAs (Decidable (∃ s ∈ v.splits.entries, _))

def split (v : Vault) (id : ℕ) : Except LedgerError Split :=
  orFail (v.splits.get? id) .vaultUtxoSplitNotFound

def setSplit (v : Vault) (id : ℕ) (s : Split) : Vault :=
  { v with splits := v.splits.modify id fun _ => s }

/-- `record_vault_utxo_split_built`. -/
def recordSplitBuilt (v : Vault) (source : Outpoint) (sourceAmount fee : ℤ) (chunkCount : ℕ) :
    Except LedgerError Vault := do
  require (¬ v.AlreadySplit source) .vaultUtxoAlreadySplit
  let u ← orFail (v.utxos.get? source) .vaultUtxoNotFound
  require (u.state = .available) .vaultUtxoNotSplittable
  return { v with
    splits := v.splits.push
      { source := source
        sourceAmount := sourceAmount
        fee := fee
        chunkCount := chunkCount
        state := .built
        signed := false
        txid := none
        missingInputsSince := none } }

/-- `record_vault_utxo_split_signed`. -/
def recordSplitSigned (v : Vault) (id : ℕ) : Except LedgerError Vault := do
  let s ← v.split id
  require (s.state = .built) .vaultUtxoSplitNotFound
  return v.setSplit id { s with state := .signed, signed := true }

/-- The chunks of a split that was broadcast, unless they are known already. -/
def insertChunks (v : Vault) (txid : Txid) (amounts : List ℤ) : Vault :=
  { v with
    utxos := amounts.zipIdx.foldl
      (fun utxos a => utxos.upsert (txid, a.2) (.fresh a.1 0 .unconfirmed) id) v.utxos }

/-- `record_vault_utxo_split_broadcast`. -/
def recordSplitBroadcast (v : Vault) (id : ℕ) (txid : Txid) (amounts : List ℤ) :
    Except LedgerError Vault := do
  let s ← v.split id
  require (s.state = .signed ∨ s.state = .broadcast) .vaultUtxoSplitNotRecoverable
  let u ← orFail (v.utxos.get? s.source) .vaultUtxoNotFound
  require (u.state = .available ∨ u.state = .spent) .vaultUtxoNotSplittable
  let marked := { v.setSplit id { s with state := .broadcast, txid := some txid } with
    utxos := v.utxos.modify s.source fun u => u.spendBySplit txid }
  return marked.insertChunks txid amounts

/-- `record_vault_utxo_split_confirmed`. -/
def recordSplitConfirmed (v : Vault) (id : ℕ) : Except LedgerError Vault := do
  let s ← v.split id
  require (s.state = .broadcast) .vaultUtxoSplitNotRecoverable
  return v.setSplit id { s with state := .confirmed, missingInputsSince := none }

/-- The chunks of an abandoned transaction never come. -/
def dropChunks (v : Vault) (txid : Txid) : Vault :=
  { v with utxos := v.utxos.mapValues fun o u =>
      if o.1 = txid ∧ (u.state = .unconfirmed ∨ u.state = .available) then { u with state := .spent }
      else u }

/-- `abandon_vault_utxo_split`. The source is not touched. -/
def abandonSplit (v : Vault) (id : ℕ) (observedTxid : Option Txid) : Except LedgerError Vault := do
  let s ← v.split id
  if s.state = .abandoned then return v
  require (s.state.isLive = true) .vaultUtxoSplitNotRecoverable
  let abandoned := v.setSplit id { s with state := .abandoned, txid := s.txid <|> observedTxid }
  return match s.txid <|> observedTxid with
    | some txid => abandoned.dropChunks txid
    | none => abandoned

/-- `readopt_vault_utxo_split`. -/
def readoptSplit (v : Vault) (id : ℕ) : Except LedgerError Vault := do
  let s ← v.split id
  require (s.state = .abandoned ∧ s.txid.isSome) .vaultUtxoSplitNotRecoverable
  require (¬ v.AlreadySplit s.source) .constraintViolated
  return v.setSplit id { s with state := .broadcast, missingInputsSince := none }

/-- `set_split_missing_inputs`. -/
def setSplitMissingInputs (v : Vault) (id : ℕ) (now : ℤ) : Vault :=
  { v with splits := v.splits.modify id fun s =>
      if s.state = .broadcast ∧ s.missingInputsSince = none then
        { s with missingInputsSince := some now }
      else s }

/-- `clear_split_missing_inputs`. -/
def clearSplitMissingInputs (v : Vault) (id : ℕ) : Vault :=
  { v with splits := v.splits.modify id fun s => { s with missingInputsSince := none } }

end Vault

/-! ## Payouts out of the vault -/

namespace Ledger

/-- `reserve_vault_utxos`, as the orchestrator calls it for a Goldcoin-bound
request. -/
def reserveVaultUtxos (l : Ledger) (id : ℕ) (selected : List Outpoint) (depth : ℤ) :
    Except LedgerError Ledger := do
  let r ← l.request id
  require r.direction.destinationIsGoldcoin (.notARoute id)
  let vault ← l.vault.reserveSelected id depth selected
  return { l with vault := vault }

/-- The part of `build_and_broadcast_payout` that takes the inputs of the plan
and records it. -/
def buildPayout (l : Ledger) (id : ℕ) (plan : PayoutPlan) (depth : ℤ) : Except LedgerError Ledger := do
  let l ← l.reserveVaultUtxos id plan.inputs depth
  l.recordGoldcoinPayoutBuilt id plan

end Ledger

end Service
