-- SUMMARY: The driver of vault splits: the maintenance of broadcast splits, the resumption of stuck ones, new splits, the heal before a reconciliation and the command of an operator, against a node and signers that may answer anything and a process that may be killed before any effect.
import ReserveBridge.Goldcoin.Payout
import ReserveBridge.Goldcoin.Split
import ReserveBridge.Lib.Procedure
import ReserveBridge.Service.Ledger.Step
import Mathlib.Data.List.Sort
import Mathlib.Data.Prod.Lex

/-!
# Vault liquidity

`service/src/goldcoin/liquidity.rs`, the signing of a split in
`service/src/signing/goldcoin_split.rs` and `glc-admin split-vault-utxo`, over
the ledger. A driver asks the node and the signers, and what they answer is given
with the run, question by question. Transactions are kept as their bytes.
-/

namespace Service

/-- The operations that write `vault_utxo_splits`. -/
def Op.writesSplits : Op → Bool
  | .recordSplitBuilt _ _ _ _ | .recordSplitSigned _ | .recordSplitBroadcast _ _ _
  | .recordSplitConfirmed _ | .abandonSplit _ _ | .readoptSplit _ | .setSplitMissingInputs _ _
  | .clearSplitMissingInputs _ => true
  | _ => false

namespace Liquidity
open Guard Procedure

/-! ## Set-up -/

/-- `ShapingPolicy`. -/
structure ShapingPolicy where
  chunkTarget : ℕ
  targetAvailableCount : ℕ
  minSource : ℕ
  maxOutputsPerSplit : ℕ
  feeRatePerKb : ℕ
  zeroConfChangeMaxDepth : ℕ
  minConfirmations : ℤ

structure ShapingConfig where
  vault : Goldcoin.MultisigVault
  /-- The vault signers, in their order. -/
  signers : List Goldcoin.Pubkey
  /-- The script of the output is that of the root vault. -/
  paysRoot : Outpoint → Bool
  policy : ShapingPolicy
  ecdsa : Goldcoin.Ecdsa
  hash160 : Bytes → Vector UInt8 20
  sha256 : Bytes → Bytes.Bytes32
  /-- `txid_of_serialized`. -/
  txidOf : Bytes → Txid

def readoptWatchSecs : ℤ := 86400

def splitMissingInputsGraceSecs : ℤ := 600

/-! ## Errors and outcomes -/

/-- `SplitSigningError`. The signers share one ledger, so their plans agree. -/
inductive SplitSigningError
  | planning (e : Goldcoin.SplitError)
  | planVerificationFailed (e : Goldcoin.SplitVerifyError)
  | ledger (e : LedgerError)
  | signer (pubkey : Goldcoin.Pubkey)
  | sourceNotFound | sourceNotAvailable | sourceNotRootVault
  | safetyCheckFailed (reserveAfterFee requiredFloor : ℕ)
  | splitNotRecoverable (state : SplitState)
  | reconstructedTxMismatch | splitNotFound

inductive ShapingError
  | ledger (e : LedgerError)
  | rpc
  | signing (e : SplitSigningError)
  | planning (e : Goldcoin.SplitError)
  | multisig (e : Goldcoin.MultisigError)
  | badStoredBytes (id : ℕ)

/-- `abandon_reason`. -/
inductive AbandonReason
  | sourceGone
  | payoutLiveness (matureTotal pendingObligations : ℕ)
  | floorRefused (reserveAfterFee requiredFloor : ℕ)
  | operator
  deriving DecidableEq

/-- What `skipped` and `lifecycle_error` say. -/
inductive ShapingNote
  | maintenance (e : ShapingError)
  | maintaining (id : ℕ) (e : ShapingError)
  | resuming (id : ℕ) (e : ShapingError)
  | rebroadcastRefused (id : ℕ)
  | nodeUnreachable (id : ℕ)
  | ambiguousSource (id : ℕ)
  | floorDeferred (id reserveAfterFee requiredFloor : ℕ)
  | broadcastRefused (id : ℕ)
  | unverifiedAmounts (id : ℕ)
  | notConverged (id : ℕ)
  | refusedAfterSigning (id : ℕ)
  | disabled
  | poolHealthy (payoutReady : ℕ)
  | chunksMaturing (count : ℕ)
  | deferredForLiveness (pendingObligations : ℕ)
  | noCandidate (payoutReady : ℕ)
  | floorRefused (amount reserveAfterFee requiredFloor : ℕ)

/-- `ShapingOutcome`. The lifecycle errors are those that are joined into one. -/
structure ShapingOutcome where
  confirmedSplitIds : List ℕ
  readoptedSplitIds : List ℕ
  rebroadcastSplitTxid : Option Txid
  abandonedSplit : Option (ℕ × AbandonReason)
  resumedSplitTxid : Option Txid
  newSplitTxid : Option Txid
  skipped : Option ShapingNote
  networkActionTaken : Bool
  lifecycleError : List ShapingNote

def ShapingOutcome.default : ShapingOutcome := ⟨[], [], none, none, none, none, none, false, []⟩

def ShapingOutcome.acted (o : ShapingOutcome) : Bool :=
  o.rebroadcastSplitTxid.isSome || o.abandonedSplit.isSome || o.resumedSplitTxid.isSome ||
    o.newSplitTxid.isSome

/-! ## The node -/

inductive TxProbe
  | known | absent | unknown
  deriving DecidableEq

inductive BroadcastOutcome
  | accepted | alreadyInChain | alreadyInMempool | missingInputs
  deriving DecidableEq

/-- The node has the transaction. -/
def BroadcastOutcome.taken : BroadcastOutcome → Bool
  | accepted | alreadyInChain | alreadyInMempool => true
  | missingInputs => false

/-- A transaction that was handed to the node, and what came back. -/
structure Sent where
  id : ℕ
  bytes : Bytes
  answer : Option BroadcastOutcome

/-- What is answered in the course of a call, by the number of the question. No
answer is a transport failure that outlasts the retries, or a signer's refusal.
The process may be killed before it writes or sends anything. -/
structure ShapingAnswers where
  now : ℤ
  killed : ℕ → Bool
  probe : ℕ → Txid → TxProbe
  send : ℕ → Bytes → Option BroadcastOutcome
  sign : ℕ → Goldcoin.Pubkey → Bytes.Bytes32 → Option Bytes

/-! ## The state -/

/-- The columns of `vault_utxo_splits` that the row of the ledger leaves out. -/
structure SplitColumns where
  chunkTarget : ℕ
  unsignedTx : Bytes
  signedTx : Option Bytes
  abandoned : Option (AbandonReason × ℤ)

/-- The ledger with these columns, the outcome of the call, what was handed to the
node, latest first, and the number of the next question. -/
structure Shaper where
  ledger : Ledger
  columns : ℕ → SplitColumns
  outcome : ShapingOutcome
  sent : List Sent
  clock : ℕ

namespace Shaper

def empty : Shaper := ⟨.empty, fun _ => ⟨0, [], none, none⟩, .default, [], 0⟩

def split? (N : Shaper) (id : ℕ) : Option Split := N.ledger.vault.splits.get? id

/-- `get_vault_utxo_split`, with the id of the row. -/
def getVaultUtxoSplit (N : Shaper) (o : Outpoint) : Option (ℕ × Split) :=
  N.ledger.vault.splits.entries.find? fun e => e.2.source = o ∧ e.2.state ≠ .abandoned

def setColumns (N : Shaper) (id : ℕ) (columns : SplitColumns) : Shaper :=
  { N with columns := Function.update N.columns id columns }

end Shaper

/-! ## Queries -/

/-- `PendingVaultUtxoSplit`. -/
structure PendingSplit where
  id : ℕ
  source : Outpoint
  state : SplitState

/-- `UnconfirmedBroadcastSplit`. -/
structure BroadcastSplit where
  id : ℕ
  txid : Txid
  signedTx : Option Bytes

namespace Shaper

/-- `pending_vault_utxo_splits`. -/
def pendingVaultUtxoSplits (N : Shaper) : List PendingSplit :=
  (N.ledger.vault.splits.entries.filter fun e => e.2.state = .built ∨ e.2.state = .signed).map
    fun e => ⟨e.1, e.2.source, e.2.state⟩

/-- `broadcast_vault_utxo_splits`. -/
def broadcastVaultUtxoSplits (N : Shaper) : List BroadcastSplit :=
  (N.ledger.vault.splits.entries.filter fun e => e.2.state = .broadcast).map
    fun e => ⟨e.1, e.2.txid.getD 0, (N.columns e.1).signedTx⟩

/-- `abandoned_splits_with_txid`. -/
def abandonedSplitsWithTxid (N : Shaper) : List (ℕ × Txid × ℤ) :=
  N.ledger.vault.splits.entries.filterMap fun e =>
    if e.2.state = .abandoned then
      e.2.txid.map fun txid => (e.1, txid, (((N.columns e.1).abandoned.map Prod.snd).getD 0))
    else none

end Shaper

section Pools

variable (l : Ledger)

/-- `max_confirmations_for_txid`. -/
def maxConfirmationsForTxid (txid : Txid) : Option ℤ :=
  ((l.vault.utxos.entries.filter fun e => e.1.1 = txid).map fun e => e.2.confirmations).max?

/-- The order of the pool: by amount, largest first. -/
def poolKey (e : Outpoint × VaultUtxo) : ℤᵒᵈ ×ₗ ℕ ×ₗ ℕ :=
  toLex (OrderDual.toDual e.2.amount, toLex e.1)

/-- `available_vault_utxos`. -/
def availableVaultUtxos : List (Outpoint × VaultUtxo) :=
  (l.vault.utxos.entries.filter fun e =>
    e.2.state = .available ∧ ¬ l.UnfinalizedDeposit e.1 ∧ ¬ l.vault.LiveSplitClaim e.1).insertionSort
      fun a b => poolKey a ≤ poolKey b

/-- `zero_conf_change_vault_utxos`, of which only the number and the amounts
count here. -/
def zeroConfChangeVaultUtxos (maxDepth : ℕ) : List (Outpoint × VaultUtxo) :=
  if maxDepth = 0 then []
  else l.vault.utxos.entries.filter fun e =>
    e.2.state = .unconfirmed ∧ e.2.zeroConfHold = false ∧
      (∃ change ∈ l.vault.changeOutpoints, change.outpoint = e.1 ∧
        (1 ≤ e.2.confirmations ∨ change.depth ≤ maxDepth)) ∧
      ¬ l.UnfinalizedDeposit e.1

/-- `split_chunks_still_explainable`. -/
def Explainable (s : Split) (now : ℤ) : Prop :=
  (s.state = .broadcast ∨ s.state = .confirmed) ∧
    ∀ since ∈ s.missingInputsSince, now < since + splitMissingInputsGraceSecs

instance (s : Split) (now : ℤ) : Decidable (Explainable s now) :=
  inferInstanceAs (Decidable (_ ∧ _))

/-- `unconfirmed_split_chunk_count`. -/
def unconfirmedSplitChunkCount (now : ℤ) : ℕ :=
  l.vault.utxos.entries.countP fun e =>
    e.2.state = .unconfirmed ∧
      ∃ s ∈ l.vault.splits.entries, s.2.txid = some e.1.1 ∧ Explainable s.2 now

/-- `floor_refusal`. Only the fee leaves the vault. -/
def floorRefusal (fee : ℕ) : Except LedgerError (Option (ℕ × ℕ)) := do
  let v ← l.reserve .goldcoinReserve
  let reserveAfterFee := asU64 v.totalReserveBalance - fee
  let requiredFloor := asU64 v.protectedMinimum + asU64 v.pendingObligations
  return if reserveAfterFee < requiredFloor then some (reserveAfterFee, requiredFloor) else none

/-- The value of the pool. -/
def matureTotal : ℕ := ((availableVaultUtxos l).map fun e => asU64 e.2.amount).sum

end Pools

/-! ## Plans and signatures -/

section Signing

variable (c : ShapingConfig)

/-- An output of the root vault as coin selection sees it. -/
def ShapingConfig.vaultUtxo (o : Outpoint) (amount : ℤ) : Goldcoin.VaultUtxo where
  txid := Goldcoin.beWord o.1
  vout := o.2
  amount := asU64 amount
  scriptPubkeyHex := Goldcoin.hexEncode (c.vault.scriptPubkey c.hash160)

/-- The plan of a split, from the figures of its row. -/
def ShapingConfig.reconstruct (s : Split) (amount : ℤ) : Except Goldcoin.SplitError Goldcoin.SplitPlan :=
  Goldcoin.reconstructPlan c.hash160 (c.vaultUtxo s.source amount) c.vault s.chunkCount (asU64 s.fee)

def unsignedBytes (plan : Goldcoin.SplitPlan) : Bytes := (Goldcoin.buildUnsignedSplitTx plan).serialize

/-- `verified_output_amounts`. -/
def verifiedOutputAmounts (s : Split) (columns : SplitColumns) : Option (List ℕ) :=
  match c.reconstruct s s.sourceAmount with
  | .error _ => none
  | .ok plan => if unsignedBytes plan = columns.unsignedTx then some plan.outputAmounts else none

def liftPlanning : Except Goldcoin.SplitError Goldcoin.SplitPlan →
    Except SplitSigningError Goldcoin.SplitPlan :=
  Except.mapError .planning

/-- `rederive_split_plan` of a `RecoverySplitSource`. -/
def rederiveSplitPlan (N : Shaper) (o : Outpoint) (chunkTarget : ℕ) :
    Except SplitSigningError Goldcoin.SplitPlan := do
  let (id, s) ← orFail (N.getVaultUtxoSplit o) .splitNotFound
  require (s.state = .built) (.splitNotRecoverable s.state)
  require ((N.columns id).chunkTarget = chunkTarget) .reconstructedTxMismatch
  let u ← orFail (N.ledger.vault.utxos.get? o) .sourceNotFound
  require (u.state = .available) .sourceNotAvailable
  require (asU64 u.amount = asU64 s.sourceAmount) .reconstructedTxMismatch
  require (c.paysRoot o = true) .sourceNotRootVault
  let plan ← liftPlanning (c.reconstruct s u.amount)
  require (unsignedBytes plan = (N.columns id).unsignedTx) .reconstructedTxMismatch
  match ← (floorRefusal N.ledger plan.fee).mapError .ledger with
  | some (reserveAfterFee, requiredFloor) => .error (.safetyCheckFailed reserveAfterFee requiredFloor)
  | none => return plan

/-- `independently_sign_split_all_signers`: the plan, the transaction and one
partial signature of each of the first signers. -/
def independentlySignSplit (answers : Goldcoin.Pubkey → Bytes.Bytes32 → Option Bytes) (N : Shaper)
    (o : Outpoint) (chunkTarget : ℕ) :
    Except SplitSigningError
      (Goldcoin.SplitPlan × Goldcoin.Transaction × List Goldcoin.PartialSignature) := do
  let plan ← rederiveSplitPlan c N o chunkTarget
  let tx := Goldcoin.buildUnsignedSplitTx plan
  (Goldcoin.verifySplitTx tx plan).mapError .planVerificationFailed
  let sighash := tx.sighashAll c.sha256 0 c.vault.redeemScript
  let partials ← (c.signers.take c.vault.threshold).mapM fun pubkey => do
    let der ← orFail (answers pubkey sighash) (SplitSigningError.signer pubkey)
    return { vaultPubkey := pubkey, derSignature := der : Goldcoin.PartialSignature }
  return (plan, tx, partials)

end Signing

/-! ## Effects -/

/-- What a driver ends with short of a result. -/
inductive Halt
  | killed
  | failed (e : ShapingError)
  /-- The command of an operator is turned down. -/
  | refused

/-- The errors that a driver handles itself. -/
def Halt.error? : Halt → Option ShapingError
  | failed e => some e
  | _ => none

abbrev Driver := Procedure Shaper Halt

section Effects

variable (w : ShapingAnswers)

/-- The number of the next question. -/
def next : Driver ℕ := do
  let N ← get
  modify fun N => { N with clock := N.clock + 1 }
  return N.clock

def alive : Driver Unit := do
  let k ← next
  if w.killed k then throw .killed else return ()

def fail {α : Type} (e : ShapingError) : Driver α := throw (.failed e)

/-- A transaction of the ledger. -/
def write (op : Op) : Driver Unit := do
  alive w
  let N ← get
  match N.ledger.run op with
  | .ok l => modify fun N => { N with ledger := l }
  | .error e => fail (.ledger e)

def note (f : ShapingOutcome → ShapingOutcome) : Driver Unit :=
  modify fun N => { N with outcome := f N.outcome }

def skip (reason : ShapingNote) : Driver Unit := note fun o => { o with skipped := some reason }

/-- The lifecycle error is overwritten. -/
def lifecycleError (notes : List ShapingNote) : Driver Unit :=
  note fun o => { o with lifecycleError := notes }

def probeTransaction (txid : Txid) : Driver TxProbe := do
  let k ← next
  return w.probe k txid

/-- `send_raw_transaction` with its retries. -/
def sendRawTransaction (id : ℕ) (bytes : Bytes) : Driver BroadcastOutcome := do
  alive w
  let k ← next
  modify fun N => { N with sent := ⟨id, bytes, w.send k bytes⟩ :: N.sent }
  match w.send k bytes with
  | some outcome => return outcome
  | none => fail .rpc

/-- `record_vault_utxo_split_built`. -/
def recordVaultUtxoSplitBuilt (o : Outpoint) (plan : Goldcoin.SplitPlan) (chunkTarget : ℕ) :
    Driver ℕ := do
  let N ← get
  let id := N.ledger.vault.splits.nextKey
  write w (.recordSplitBuilt o (asI64 plan.source.amount) (asI64 plan.fee) plan.outputAmounts.length)
  modify fun N => N.setColumns id
    { chunkTarget := chunkTarget
      unsignedTx := unsignedBytes plan
      signedTx := none
      abandoned := none }
  return id

/-- `record_vault_utxo_split_signed`. -/
def recordVaultUtxoSplitSigned (id : ℕ) (bytes : Bytes) : Driver Unit := do
  write w (.recordSplitSigned id)
  modify fun N => N.setColumns id { N.columns id with signedTx := some bytes }

/-- `record_vault_utxo_split_broadcast`. -/
def recordVaultUtxoSplitBroadcast (id : ℕ) (txid : Txid) (amounts : List ℕ) : Driver Unit :=
  write w (.recordSplitBroadcast id txid (amounts.map fun amount : ℕ => asI64 amount))

/-- `abandon_vault_utxo_split`. A split that was abandoned before keeps its reason. -/
def abandonVaultUtxoSplit (id : ℕ) (reason : AbandonReason) (observedTxid : Option Txid) :
    Driver Unit := do
  let N ← get
  write w (.abandonSplit id observedTxid)
  if (N.split? id).any fun s => s.state ≠ .abandoned then
    modify fun N => N.setColumns id { N.columns id with abandoned := some (reason, w.now) }
  else return ()

end Effects

/-! ## Maintenance -/

section Maintenance

variable (c : ShapingConfig) (w : ShapingAnswers)

/-- The re-adoption of an abandoned split that the node has after all. -/
def readoptOne (only : Option ℕ) (e : ℕ × Txid × ℤ) : Driver Unit := do
  if (∃ id ∈ only, id ≠ e.1) ∨ readoptWatchSecs < w.now - e.2.2 then return ()
  else match ← probeTransaction w e.2.1 with
    | .known => do
      write w (.readoptSplit e.1)
      note fun o => { o with readoptedSplitIds := o.readoptedSplitIds ++ [e.1] }
    | _ => return ()

/-- The first pass, which asks the ledger only. -/
def confirmOne (only : Option ℕ) (s : BroadcastSplit) : Driver Unit := do
  let N ← get
  if ∃ id ∈ only, id ≠ s.id then return ()
  else if c.policy.minConfirmations ≤ (maxConfirmationsForTxid N.ledger s.txid).getD 0 then do
    write w (.recordSplitConfirmed s.id)
    note fun o => { o with confirmedSplitIds := o.confirmedSplitIds ++ [s.id] }
  else return ()

/-- `drive_one_broadcast_split`: whether it was broadcast again. -/
def driveOneBroadcastSplit (s : BroadcastSplit) : Driver Bool := do
  match ← probeTransaction w s.txid with
  | .known => do
    write w (.clearSplitMissingInputs s.id)
    return false
  | .unknown => return false
  | .absent => match s.signedTx with
    | none => fail (.badStoredBytes s.id)
    | some bytes => do
      let outcome ← sendRawTransaction w s.id bytes
      if outcome.taken then do
        write w (.clearSplitMissingInputs s.id)
        note fun o => { o with rebroadcastSplitTxid := some s.txid }
        return true
      else do
        write w (.setSplitMissingInputs s.id w.now)
        lifecycleError [.rebroadcastRefused s.id]
        return false

/-- The second pass, up to the first split that was broadcast again. -/
def driveEach (only : Option ℕ) : List BroadcastSplit → Driver Unit
  | [] => return ()
  | s :: rest => do
    let N ← get
    if (∃ id ∈ only, id ≠ s.id) ∨ s.id ∈ N.outcome.confirmedSplitIds then driveEach only rest
    else match ← attempt Halt.error? (driveOneBroadcastSplit w s) with
      | .ok true => return ()
      | .ok false => driveEach only rest
      | .error e => do
        lifecycleError [.maintaining s.id e]
        driveEach only rest

/-- `maintain_broadcast_splits`. -/
def maintainBroadcastSplits (only : Option ℕ) : Driver Unit := do
  let N ← get
  N.abandonedSplitsWithTxid.forM (readoptOne w only)
  let N ← get
  let splits := N.broadcastVaultUtxoSplits
  splits.forM (confirmOne c w only)
  driveEach w only splits

end Maintenance

/-! ## Signing and broadcasting -/

inductive BuiltSplitResult
  | broadcast (txid : Txid)
  | refusedFloor (reserveAfterFee requiredFloor : ℕ)
  | broadcastRefusedMissingInputs

section Resume

variable (c : ShapingConfig) (w : ShapingAnswers)

/-- `sign_and_broadcast_built_split`. -/
def signAndBroadcastBuiltSplit (o : Outpoint) (id chunkTarget : ℕ) : Driver BuiltSplitResult := do
  let k ← next
  let N ← get
  match independentlySignSplit c (w.sign k) N o chunkTarget with
  | .error (.safetyCheckFailed reserveAfterFee requiredFloor) =>
    return .refusedFloor reserveAfterFee requiredFloor
  | .error e => fail (.signing e)
  | .ok (plan, tx, partials) =>
    let sighash := tx.sighashAll c.sha256 0 c.vault.redeemScript
    match Goldcoin.assemble c.ecdsa c.vault sighash partials with
    | .error e => fail (.multisig e)
    | .ok script => do
      let bytes := (tx.withScript 0 script).serialize
      recordVaultUtxoSplitSigned w id bytes
      let outcome ← sendRawTransaction w id bytes
      if outcome.taken then do
        recordVaultUtxoSplitBroadcast w id (c.txidOf bytes) plan.outputAmounts
        return .broadcast (c.txidOf bytes)
      else return .broadcastRefusedMissingInputs

/-- A split that was not signed is let go of. -/
def release (id : ℕ) (reason : AbandonReason) : Driver Unit := do
  abandonVaultUtxoSplit w id reason none
  note fun o => { o with abandonedSplit := some (id, reason) }

/-- What the resumption of a signed split does once the node has its transaction. -/
def recordResumed (id : ℕ) (s : Split) (columns : SplitColumns) (txid : Txid) : Driver Unit := do
  note fun o => { o with networkActionTaken := true }
  match verifiedOutputAmounts c s columns with
  | none => lifecycleError [.unverifiedAmounts id]
  | some amounts =>
    match ← attempt Halt.error? (recordVaultUtxoSplitBroadcast w id txid amounts) with
    | .ok _ => note fun o => { o with resumedSplitTxid := some txid }
    | .error (.ledger .vaultUtxoNotSplittable) => skip (.notConverged id)
    | .error e => fail e

/-- `resume_pending_split`, in state `Signed`. -/
def resumeSigned (id : ℕ) (s : Split) (columns : SplitColumns) (sourceOk : Bool) : Driver Unit := do
  match columns.signedTx with
  | none => fail (.badStoredBytes id)
  | some bytes =>
    match ← probeTransaction w (c.txidOf bytes) with
    | .unknown => skip (.nodeUnreachable id)
    | .known => recordResumed c w id s columns (c.txidOf bytes)
    | .absent =>
      if ¬ sourceOk then lifecycleError [.ambiguousSource id]
      else do
        let N ← get
        match floorRefusal N.ledger (asU64 s.fee) with
        | .error e => fail (.ledger e)
        | .ok (some (reserveAfterFee, requiredFloor)) =>
          skip (.floorDeferred id reserveAfterFee requiredFloor)
        | .ok none => do
          let outcome ← sendRawTransaction w id bytes
          if outcome.taken then recordResumed c w id s columns (c.txidOf bytes)
          else lifecycleError [.broadcastRefused id]

/-- `resume_pending_split`, in state `Built`. -/
def resumeBuilt (id : ℕ) (o : Outpoint) (chunkTarget : ℕ) (sourceOk : Bool) : Driver Unit := do
  if ¬ sourceOk then release w id .sourceGone
  else do
    let N ← get
    match N.ledger.reserve .goldcoinReserve with
    | .error e => fail (.ledger e)
    | .ok v =>
      if matureTotal N.ledger < asU64 v.pendingObligations then
        release w id (.payoutLiveness (matureTotal N.ledger) (asU64 v.pendingObligations))
      else match ← signAndBroadcastBuiltSplit c w o id chunkTarget with
        | .broadcast txid => note fun o => { o with resumedSplitTxid := some txid }
        | .refusedFloor reserveAfterFee requiredFloor =>
          release w id (.floorRefused reserveAfterFee requiredFloor)
        | .broadcastRefusedMissingInputs =>
          note fun o => { o with
            networkActionTaken := true
            lifecycleError := [.refusedAfterSigning id] }

/-- `resume_pending_split`. -/
def resumePendingSplit (p : PendingSplit) : Driver Unit := do
  let N ← get
  match N.getVaultUtxoSplit p.source with
  | none => fail (.ledger .vaultUtxoSplitNotFound)
  | some (row, s) =>
    let sourceOk := (N.ledger.vault.utxos.get? p.source).any fun u => u.state = .available
    match p.state with
    | .signed => resumeSigned c w p.id s (N.columns row) sourceOk
    | .built => resumeBuilt c w p.id p.source (N.columns row).chunkTarget sourceOk
    | _ => fail (.ledger .vaultUtxoSplitNotRecoverable)

/-- What the walk over the pending splits takes out of the outcome of one. -/
def takeNotes : Driver (List ShapingNote) := do
  let N ← get
  note fun o => { o with skipped := none, lifecycleError := [] }
  return N.outcome.skipped.toList ++ N.outcome.lifecycleError

/-- The notes of splits that did not act replace what was there. -/
def keepNotes (notes : List ShapingNote) : Driver Unit :=
  note fun o => if notes = [] then o else { o with lifecycleError := notes }

/-- The walk over the pending splits, up to the first one that acts. The notes of
the others are collected. -/
def resumeEach (notes : List ShapingNote) : List PendingSplit → Driver Bool
  | [] => do
    keepNotes notes
    return false
  | p :: rest => do
    match ← attempt Halt.error? (resumePendingSplit c w p) with
    | .ok _ => do
      let N ← get
      if N.outcome.acted ∨ N.outcome.networkActionTaken then do
        note fun o => { o with
          skipped := none
          lifecycleError := notes ++ N.outcome.skipped.toList ++ o.lifecycleError }
        return true
      else do
        let taken ← takeNotes
        resumeEach (notes ++ taken) rest
    | .error e => resumeEach (notes ++ [.resuming p.id e]) rest

end Resume

/-! ## New splits -/

inductive FreshSplitOutcome
  | broadcast (txid : Txid)
  | refusedFloor (reserveAfterFee requiredFloor : ℕ)
  | abandoned (id : ℕ) (reason : AbandonReason)
  | deferred (id : ℕ)

section Fresh

variable (c : ShapingConfig) (w : ShapingAnswers)

/-- `execute_fresh_split`. -/
def executeFreshSplit (o : Outpoint) (amount : ℤ) (chunkTarget : ℕ) : Driver FreshSplitOutcome := do
  let N ← get
  match Goldcoin.planSplit c.hash160 (c.vaultUtxo o amount) c.vault chunkTarget
      c.policy.feeRatePerKb with
  | .error e => fail (.planning e)
  | .ok plan => match floorRefusal N.ledger plan.fee with
    | .error e => fail (.ledger e)
    | .ok (some (reserveAfterFee, requiredFloor)) => return .refusedFloor reserveAfterFee requiredFloor
    | .ok none => do
      let id ← recordVaultUtxoSplitBuilt w o plan chunkTarget
      match ← signAndBroadcastBuiltSplit c w o id chunkTarget with
      | .broadcast txid => return .broadcast txid
      | .refusedFloor reserveAfterFee requiredFloor => do
        let reason := .floorRefused reserveAfterFee requiredFloor
        abandonVaultUtxoSplit w id reason none
        return .abandoned id reason
      | .broadcastRefusedMissingInputs => return .deferred id

/-- The largest candidate that leaves enough for the obligations, and whether one
was passed over for them. -/
def splitCandidate (l : Ledger) (pendingObligations : ℕ) :
    List (Outpoint × VaultUtxo) → Option (Outpoint × VaultUtxo) × Bool
  | [] => (none, false)
  | e :: rest =>
    if asU64 e.2.amount < c.policy.minSource then (none, false)
    else if c.paysRoot e.1 = false ∨ l.vault.AlreadySplit e.1 then
      splitCandidate l pendingObligations rest
    else if matureTotal l - asU64 e.2.amount < pendingObligations then
      ((splitCandidate l pendingObligations rest).1, true)
    else (some e, false)

/-- Larger chunks rather than more of them. -/
def effectiveChunkTarget (amount : ℤ) (chunkTarget : ℕ) : ℕ :=
  max (Goldcoin.divCeil (asU64 amount) c.policy.maxOutputsPerSplit) chunkTarget

/-- The number of outputs that payouts can draw on. -/
def payoutReady (l : Ledger) : ℕ :=
  let ready := fun e : Outpoint × VaultUtxo =>
    decide (c.policy.chunkTarget / 2 ≤ asU64 e.2.amount)
  (availableVaultUtxos l).countP ready +
    (zeroConfChangeVaultUtxos l c.policy.zeroConfChangeMaxDepth).countP ready

/-- The part of `run_shaping_tick` that considers a new split. -/
def considerNewSplit : Driver Unit := do
  let N ← get
  let ready := payoutReady c N.ledger
  let maturing := unconfirmedSplitChunkCount N.ledger w.now
  if c.policy.targetAvailableCount ≤ ready then skip (.poolHealthy ready)
  else if 0 < maturing then skip (.chunksMaturing maturing)
  else match N.ledger.reserve .goldcoinReserve with
    | .error e => fail (.ledger e)
    | .ok v =>
      let pendingObligations := asU64 v.pendingObligations
      match splitCandidate c N.ledger pendingObligations (availableVaultUtxos N.ledger) with
      | (none, true) => skip (.deferredForLiveness pendingObligations)
      | (none, false) => skip (.noCandidate ready)
      | (some (o, u), _) => do
        match ← executeFreshSplit c w o u.amount (effectiveChunkTarget c u.amount c.policy.chunkTarget) with
        | .broadcast txid => note fun o => { o with newSplitTxid := some txid }
        | .refusedFloor reserveAfterFee requiredFloor =>
          skip (.floorRefused (asU64 u.amount) reserveAfterFee requiredFloor)
        | .abandoned id reason => note fun o => { o with abandonedSplit := some (id, reason) }
        | .deferred id =>
          note fun o => { o with
            networkActionTaken := true
            lifecycleError := [.refusedAfterSigning id] }

def noteMaintenance : Except ShapingError Unit → Driver Unit
  | .ok _ => return ()
  | .error e => lifecycleError [.maintenance e]

/-- `run_shaping_tick`. -/
def runShapingTick (allowNewSplits : Bool) : Driver Unit := do
  note fun _ => .default
  let maintained ← attempt Halt.error? (maintainBroadcastSplits c w none)
  noteMaintenance maintained
  let N ← get
  if maintained.isOk ∧ N.outcome.acted then return ()
  else do
    let acted ← resumeEach c w [] N.pendingVaultUtxoSplits
    if acted then return ()
    else if ¬ allowNewSplits then skip .disabled
    else considerNewSplit c w

end Fresh

/-! ## The heal -/

/-- Why a signed split could not be settled. -/
inductive HealReason
  | unsigned | nodeUnreachable | unverifiedAmounts
  | recording (e : ShapingError)

structure HealReport where
  healed : List ℕ
  unresolved : List (ℕ × HealReason)

section Heal

variable (c : ShapingConfig) (w : ShapingAnswers)

/-- One row of `heal_split_bookkeeping`: whether it was healed. -/
def healOne (p : PendingSplit) : Driver (Except HealReason Bool) := do
  let N ← get
  match N.getVaultUtxoSplit p.source with
  | none => return .ok false
  | some (row, s) => match (N.columns row).signedTx with
    | none => return .error .unsigned
    | some bytes => match ← probeTransaction w (c.txidOf bytes) with
      | .absent => return .ok false
      | .unknown => return .error .nodeUnreachable
      | .known => match verifiedOutputAmounts c s (N.columns row) with
        | none => return .error .unverifiedAmounts
        | some amounts =>
          match ← attempt Halt.error?
              (recordVaultUtxoSplitBroadcast w p.id (c.txidOf bytes) amounts) with
          | .ok _ => return .ok true
          | .error e => return .error (.recording e)

def healEach (report : HealReport) : List PendingSplit → Driver HealReport
  | [] => return report
  | p :: rest => do
    match ← healOne c w p with
    | .ok true => healEach { report with healed := report.healed ++ [p.id] } rest
    | .ok false => healEach report rest
    | .error reason =>
      healEach { report with unresolved := report.unresolved ++ [(p.id, reason)] } rest

/-- `heal_split_bookkeeping`. -/
def healSplitBookkeeping : Driver HealReport := do
  let N ← get
  healEach c w ⟨[], []⟩ (N.pendingVaultUtxoSplits.filter fun p => p.state = .signed)

end Heal

/-! ## The command of an operator -/

section Command

variable (c : ShapingConfig) (w : ShapingAnswers)

/-- `--abandon`: refused while the node may have the transaction. -/
def abandonCommand (id : ℕ) (s : Split) (columns : SplitColumns) : Driver Unit := do
  if s.state = .confirmed then throw .refused
  else if s.state = .built then abandonVaultUtxoSplit w id .operator none
  else match s.txid <|> columns.signedTx.map c.txidOf with
    | none => throw .refused
    | some txid => match ← probeTransaction w txid with
      | .absent => abandonVaultUtxoSplit w id .operator (some txid)
      | _ => throw .refused

/-- A new split, with the checks of the command before anything is signed. -/
def freshCommand (o : Outpoint) (chunkTarget : ℕ) : Driver Unit := do
  let N ← get
  match N.ledger.vault.utxos.get? o with
  | none => throw .refused
  | some u =>
    if u.state ≠ .available ∨ c.paysRoot o = false then throw .refused
    else
      let chunkTarget := effectiveChunkTarget c u.amount chunkTarget
      match Goldcoin.planSplit c.hash160 (c.vaultUtxo o u.amount) c.vault chunkTarget
          c.policy.feeRatePerKb, N.ledger.reserve .goldcoinReserve with
      | .ok plan, .ok v =>
        if asU64 v.totalReserveBalance - plan.fee <
              asU64 v.protectedMinimum + asU64 v.pendingObligations ∨
            matureTotal N.ledger - asU64 u.amount < asU64 v.pendingObligations then throw .refused
        else do
          match ← executeFreshSplit c w o u.amount chunkTarget with
          | .broadcast _ => return ()
          | _ => throw .refused
      | _, _ => throw .refused

/-- `glc-admin split-vault-utxo --execute`. -/
def splitVaultUtxo (o : Outpoint) (abandon : Bool) (chunkTarget : ℕ) : Driver Unit := do
  note fun _ => .default
  let N ← get
  match N.getVaultUtxoSplit o with
  | none => if abandon then throw .refused else freshCommand c w o chunkTarget
  | some (id, s) =>
    if abandon then abandonCommand c w id s (N.columns id)
    else match s.state with
      | .confirmed => return ()
      | .broadcast => maintainBroadcastSplits c w (some id)
      | .built | .signed => resumePendingSplit c w ⟨id, o, s.state⟩
      | .abandoned => throw .refused

end Command

/-! ## Runs -/

/-- What happens to the splits and around them: another transaction of the ledger,
the heal of a reconciliation, a tick of the daemon, and the command of an operator. -/
inductive Event
  | op (op : Op)
  | heal (w : ShapingAnswers)
  | tick (w : ShapingAnswers) (allowNewSplits : Bool)
  | command (w : ShapingAnswers) (o : Outpoint) (abandon : Bool) (chunkTarget : ℕ)

/-- One event. Whatever stops a driver, what it did before is done. -/
def step (c : ShapingConfig) (N : Shaper) : Event → Option Shaper
  | .op op =>
    if op.writesSplits then none
    else (N.ledger.step op).map fun l => { N with ledger := l }
  | .heal w => some (final (healSplitBookkeeping c w) N)
  | .tick w allowNewSplits => some (final (runShapingTick c w allowNewSplits) N)
  | .command w o abandon chunkTarget => some (final (splitVaultUtxo c w o abandon chunkTarget) N)

/-- The state after a run. -/
abbrev after (c : ShapingConfig) (es : List Event) : Shaper := Run.final (step c) .empty es

end Liquidity

end Service
