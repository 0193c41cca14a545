-- SUMMARY: The Goldcoin indexer: which outputs pay the vault or a request, the scan of a block, the fork search, the rollback, and a tick against a node whose best chain moves between any two questions.
import ReserveBridge.Lib.Attempt
import ReserveBridge.Lib.Bytes
import ReserveBridge.Service.Ledger.Step

/-!
# The Goldcoin indexer

`service/src/goldcoin/indexer.rs` and `service/src/goldcoin/deposit.rs`, over
the ledger. A block hash stands for the block it commits to. What the node
answers during a tick is given with the tick, question by question, so the best
chain may be another one at each question. What was written before a question
that fails stays written.
-/

namespace Service.Goldcoin
open Guard

/-! ## The node -/

/-- An output of a decoded transaction, in atomic units. -/
structure TxOut where
  n : ℕ
  value : ℕ
  script : Bytes
  deriving DecidableEq, Repr

structure BlockHeader where
  previousBlockHash : Option ℕ
  time : ℤ
  tx : List Txid
  deriving DecidableEq, Repr

/-- What hashes and transaction ids stand for. A transaction the node cannot
return has no outputs here, and such are those of the genesis block. -/
structure Node where
  height : ℕ → ℤ
  header : ℕ → BlockHeader
  transaction : Txid → Option (List TxOut)
  genesis_unfetchable : ∀ hash, height hash = 0 → ∀ txid ∈ (header hash).tx, transaction txid = none

/-- `previousblockhash`, with zeros for none. -/
def BlockHeader.prevHash (h : BlockHeader) : ℕ := h.previousBlockHash.getD 0

/-! ## Deposits of a transaction -/

/-- `BindingError`. -/
inductive BindingError
  | noOpReturn | multipleOpReturn
  | wrongPushSize (actual : ℕ)
  deriving DecidableEq, Repr

/-- `reason_code`. -/
def BindingError.reasonCode : BindingError → String
  | noOpReturn => "no_request_binding"
  | multipleOpReturn => "ambiguous_request_binding"
  | wrongPushSize _ => "malformed_request_binding"

/-- `OP_RETURN`. -/
def opReturn : UInt8 := 0x6a

/-- `extract_request_binding`. The size of the first `OP_RETURN` is checked before
a second one is looked for. -/
def extractRequestBinding (outs : List TxOut) : Except BindingError ℤ :=
  match outs.filter fun o => o.script.head? = some opReturn with
  | [] => .error .noOpReturn
  | o :: others =>
    let payload := o.script.drop 2
    if (o.script.getD 1 0).toNat ≠ 32 ∨ payload.length ≠ 32 then
      .error (.wrongPushSize payload.length)
    else if others ≠ [] then .error .multipleOpReturn
    else .ok (asI64 (Bytes.leValue (payload.take 8)))

/-- `distribute_evenly`, the amount of one output. -/
def distributeEvenly (distributable chunkCount i : ℕ) : ℕ :=
  if i < distributable % chunkCount then distributable / chunkCount + 1
  else distributable / chunkCount

/-- `matches_expected_split_output`. -/
def matchesExpectedSplitOutput (s : Split) (vout amount : ℕ) : Bool :=
  vout < s.chunkCount && asU64 s.fee ≤ asU64 s.sourceAmount &&
    distributeEvenly (asU64 s.sourceAmount - asU64 s.fee) s.chunkCount vout = amount

/-- An output that pays the vault or a request, and the request it is for. -/
structure Candidate where
  vout : ℕ
  amount : ℕ
  target : Except BindingError ℤ

/-! ## The state -/

/-- A row of `goldcoin_indexed_blocks`. -/
structure IndexedBlock where
  hash : ℕ
  prevHash : ℕ
  blockTime : ℤ
  indexedAt : ℤ
  deriving DecidableEq, Repr

/-- A row of `unmatched_goldcoin_deposits`. -/
structure UnmatchedDeposit where
  amount : ℕ
  blockHeight : ℤ
  reason : String
  discoveredAt : ℤ
  deriving DecidableEq, Repr

/-- An output that was found to pay the vault or a request. -/
structure Found where
  height : ℤ
  txid : Txid
  vout : ℕ
  deriving DecidableEq, Repr

/-- A transaction of a block whose outputs were looked at. -/
structure Scanned where
  height : ℤ
  hash : ℕ
  txid : Txid
  deriving DecidableEq, Repr

/-- The ledger with the tables of the indexer, its halts, and what it has looked
at in the blocks up to its tip, latest first. -/
structure Indexer where
  ledger : Ledger
  /-- `deposit_script_pubkey_hex` of the requests that have one. -/
  depositScripts : Store Bytes ℕ
  unmatched : Store (Txid × ℕ) UnmatchedDeposit
  blocks : Store ℤ IndexedBlock
  halted : Bool
  postFinalityHalt : Option (ℤ × ℤ × List ℕ)
  found : List Found
  scanned : List Scanned

/-- `InitialCheckpoint`. The hash is there if it is 32 bytes of hex. -/
structure InitialCheckpoint where
  height : ℤ
  hash : Option ℕ
  operatorAcknowledgedNoPriorDeposits : Bool

/-- `IndexerConfig`. -/
structure IndexerConfig where
  vaultScript : Bytes
  confirmationDepth : ℕ
  maxReorgDepth : ℕ
  initialCheckpoint : Option InitialCheckpoint

/-- What is answered while one block is indexed. A question that fails has no
answer. `wallets` is what `trace_funding_wallets` finds. -/
structure BlockAnswers where
  now : ℤ
  hash : Option ℕ
  header : Bool
  transaction : Txid → Bool
  wallets : Txid → Option (List Bytes)
  lock : QuoteLock

/-- A node answers with a block of the height it was asked about. -/
def Node.hashAt (node : Node) (height : ℤ) (answer : Option ℕ) : Option ℕ :=
  answer.filter fun hash => node.height hash = height

namespace Indexer

def empty : Indexer := ⟨.empty, .empty, .empty, .empty, false, none, [], []⟩

/-! ## The tables -/

/-- `set_goldcoin_deposit_address`. -/
def setDepositAddress (N : Indexer) (id : ℕ) (script : Bytes) : Option Indexer := do
  let r ← N.ledger.requests.get? id
  let depositScripts ← N.depositScripts.init script id
  if r.direction.sourceIsGoldcoin ∧ ∀ e ∈ N.depositScripts.entries, e.2 ≠ id then
    some { N with depositScripts := depositScripts }
  else none

/-- `record_unmatched_goldcoin_deposit`: a row that is there is left. -/
def recordUnmatched (N : Indexer) (txid : Txid) (vout amount : ℕ) (height : ℤ) (reason : String)
    (now : ℤ) : Indexer :=
  { N with unmatched :=
      (N.unmatched.init (txid, vout) ⟨amount, height, reason, now⟩).getD N.unmatched }

/-- `get_broadcast_vault_utxo_split`. -/
def broadcastVaultUtxoSplit (N : Indexer) (txid : Txid) : Option Split :=
  (N.ledger.vault.splits.entries.find? fun e =>
    e.2.txid = some txid ∧ (e.2.state = .broadcast ∨ e.2.state = .confirmed)).map Prod.snd

/-- `goldcoin_chain_tip`. -/
def chainTip (N : Indexer) : Option (ℤ × IndexedBlock) := do
  let height ← N.blocks.keys.max?
  let block ← N.blocks.get? height
  return (height, block)

/-- `goldcoin_ingest_block`. -/
def ingestBlock (N : Indexer) (height : ℤ) (b : IndexedBlock) : Indexer :=
  { N with blocks := N.blocks.upsert height b fun _ => b }

/-- `goldcoin_rollback_reorg`. What was found in the orphaned blocks is forgotten
with them. -/
def rollbackReorg (N : Indexer) (forkHeight : ℤ) : Indexer :=
  { N with
    ledger := N.ledger.goldcoinRollbackReorg forkHeight
    blocks := N.blocks.retain fun height => height ≤ forkHeight
    found := N.found.filter fun f => f.height ≤ forkHeight
    scanned := N.scanned.filter fun s => s.height ≤ forkHeight }

/-- `detect_post_finality_reorg`. -/
def detectPostFinalityReorg (N : Indexer) (forkHeight : ℤ) : List ℕ :=
  (N.ledger.requests.entries.filter fun e =>
    e.2.direction.sourceIsGoldcoin ∧ e.2.sourceFinalizedAt.isSome ∧
      ∃ h ∈ e.2.sourceBlockHeight, forkHeight < h).map Prod.fst

/-! ## The scan of a block -/

/-- The outputs of a transaction that pay the vault, and then those that pay the
deposit script of a request. -/
def candidates (N : Indexer) (c : IndexerConfig) (outs : List TxOut) : List Candidate :=
  (outs.filter fun o => o.script = c.vaultScript).map
      (fun o => ⟨o.n, o.value, extractRequestBinding outs⟩) ++
    outs.filterMap fun o => (N.depositScripts.get? o.script).map fun id => ⟨o.n, o.value, .ok id⟩

/-- The output stands in the block. -/
def note (N : Indexer) (height : ℤ) (txid : Txid) (vout : ℕ) : Indexer :=
  { N with found := ⟨height, txid, vout⟩ :: N.found }

/-- What the ledger answers for a request id read off the chain. -/
def recordDeposit (N : Indexer) (id : ℤ) (dep : GlcDeposit) (lock : QuoteLock) (now : ℤ) :
    Except LedgerError (GlcObservationOutcome × Ledger) :=
  if id < 0 then .ok (.noMatchingRequest, N.ledger)
  else N.ledger.recordGlcDepositObserved id.toNat dep lock now

/-- `observe_glc_deposit`. -/
def observeGlcDeposit (N : Indexer) (id : ℤ) (dep : GlcDeposit) (lock : QuoteLock) (now : ℤ) :
    Attempt Indexer :=
  match N.recordDeposit id dep lock now with
  | .error _ => .stopped N
  | .ok (outcome, l) =>
    let N := { N with ledger := l }.note dep.blockHeight dep.txid dep.vout
    if outcome = .noMatchingRequest then
      .done (N.recordUnmatched dep.txid dep.vout dep.amount dep.blockHeight "no_matching_request" now)
    else .done N

/-- One output of a transaction. An output of the service's own split is no
deposit. -/
def attributeOutput (N : Indexer) (height : ℤ) (hash : ℕ) (txid : Txid) (wallets : List Bytes)
    (w : BlockAnswers) (out : Candidate) : Attempt Indexer :=
  match out.target with
  | .error e =>
    if (N.broadcastVaultUtxoSplit txid).any fun s => matchesExpectedSplitOutput s out.vout out.amount
    then .done N
    else .done ((N.note height txid out.vout).recordUnmatched txid out.vout out.amount height
      e.reasonCode w.now)
  | .ok id => N.observeGlcDeposit id
      { txid := txid
        vout := out.vout
        amount := out.amount
        blockHeight := height
        blockHash := hash
        sourceWallets := wallets } w.lock w.now

/-- One transaction of a block. The funding wallets are traced when an output
pays the vault or a request. -/
def scanTransaction (N : Indexer) (node : Node) (c : IndexerConfig) (height : ℤ) (hash : ℕ)
    (w : BlockAnswers) (txid : Txid) : Attempt Indexer :=
  match node.transaction txid with
  | none => .stopped N
  | some outs =>
    if ¬ w.transaction txid then .stopped N
    else
      let outputs := N.candidates c outs
      let attributed : Attempt Indexer :=
        if outputs = [] then .done N
        else match w.wallets txid with
          | none => .stopped N
          | some wallets =>
            Attempt.loop (fun N out => N.attributeOutput height hash txid wallets w out) N outputs
      attributed.andThen fun N => .done { N with scanned := ⟨height, hash, txid⟩ :: N.scanned }

/-- `index_block`. -/
def indexBlock (N : Indexer) (node : Node) (c : IndexerConfig) (height : ℤ) (w : BlockAnswers) :
    Attempt Indexer :=
  match node.hashAt height w.hash with
  | none => .stopped N
  | some hash =>
    if ¬ w.header then .stopped N
    else
      let header := node.header hash
      -- the genesis block is skipped
      let scanned : Attempt Indexer :=
        if height = 0 then .done N
        else Attempt.loop (fun N txid => N.scanTransaction node c height hash w txid) N header.tx
      scanned.andThen fun N =>
        .done (N.ingestBlock height ⟨hash, header.prevHash, header.time, w.now⟩)

end Indexer

/-! ## A tick -/

inductive TickOutcome
  | progressed | halted | postFinalityReorgHalted
  /-- A question failed, or the ledger did. -/
  | failed
  deriving DecidableEq, Repr

/-- What is answered during a tick: `getblockcount`, the questions of the
bootstrap, of the fork search and of the rollback, those of each block, and those
of the promotion. -/
structure TickAnswers where
  now : ℤ
  blockCount : Option ℤ
  checkpointHash : Option ℕ
  searchHash : ℤ → Option ℕ
  forkHash : Option ℕ
  block : ℤ → BlockAnswers
  /-- `get_tx_out_confirmed`: whether the output is unspent. -/
  unspent : ℕ → Option Bool

namespace Indexer

/-- `find_fork_point`, with the blocks that may still be walked back. -/
def findForkPoint (N : Indexer) (node : Node) (search : ℤ → Option ℕ) :
    ℤ → ℕ → Except Unit (Option ℤ)
  | h, left =>
    if h < 0 then .ok none
    else match node.hashAt h (search h) with
      | none => .error ()
      | some live =>
        if (N.blocks.get? h).map IndexedBlock.hash = some live then .ok (some h)
        else match left with
          | 0 => .ok none
          | left + 1 => N.findForkPoint node search (h - 1) left

/-- `bootstrap_from_checkpoint_or_genesis`: the height to start from. A
checkpoint is used if all of it checks out. -/
def bootstrap (node : Node) (c : IndexerConfig) (w : TickAnswers) (liveTip : ℤ) : Option ℤ :=
  match c.initialCheckpoint with
  | none => some 0
  | some checkpoint =>
    if 0 ≤ checkpoint.height ∧ checkpoint.hash.isSome ∧
        checkpoint.operatorAcknowledgedNoPriorDeposits ∧ checkpoint.height ≤ liveTip ∧
        node.hashAt checkpoint.height w.checkpointHash = checkpoint.hash then
      some checkpoint.height
    else none

/-- `record_post_finality_reorg`: both reserves are paused. -/
def recordPostFinalityReorg (N : Indexer) (forkHeight oldTip : ℤ) (affected : List ℕ) : Indexer :=
  { N with
    ledger := (N.ledger.applySetting (.paused .goldcoinReserve true)).applySetting
      (.paused .solanaReserve true)
    postFinalityHalt := some (forkHeight, oldTip, affected) }

/-- A write of the ledger, which stops the tick when it fails. -/
def writeLedger (N : Indexer) (x : Except LedgerError Ledger) (rest : Indexer → Attempt Indexer) :
    Attempt Indexer :=
  match x with
  | .error _ => .stopped N
  | .ok l => rest { N with ledger := l }

/-- The rows of `promote_confirming`, by direction. -/
def confirmingRows (l : Ledger) : List (ℕ × Request) :=
  [Direction.glcToSol, Direction.glcToRhn].flatMap fun d =>
    l.requests.entries.filter fun e => e.2.direction = d ∧ e.2.state = .confirming

/-- One row of `promote_confirming`. -/
def promoteRow (N : Indexer) (c : IndexerConfig) (tip : ℤ) (w : TickAnswers) (e : ℕ × Request) :
    Attempt Indexer :=
  match e.2.sourceBlockHeight with
  | none => .done N
  | some height =>
    let depth := tip - height + 1
    N.writeLedger (N.ledger.updateGlcConfirmations e.1 depth) fun N =>
      if depth < c.confirmationDepth ∨ e.2.sourceTxid = none ∨ e.2.sourceVout = none then .done N
      else match w.unspent e.1 with
        | none => .stopped N
        | some false =>
          N.writeLedger (N.ledger.markGlcDepositSpentBeforeFinalized e.1) .done
        | some true => N.writeLedger (N.ledger.markGlcSourceFinalized e.1 w.now) .done

/-- `promote_confirming`. -/
def promoteConfirming (N : Indexer) (c : IndexerConfig) (tip : ℤ) (w : TickAnswers) :
    Attempt Indexer :=
  Attempt.loop (fun N e => N.promoteRow c tip w e) N (confirmingRows N.ledger)

/-- `start..=tip`. -/
def heights (start tip : ℤ) : List ℤ :=
  (List.range (tip + 1 - start).toNat).map fun (i : ℕ) => start + i

/-- The blocks of a tick. -/
def indexBlocks (N : Indexer) (node : Node) (c : IndexerConfig) (w : TickAnswers) (start tip : ℤ) :
    Attempt Indexer :=
  Attempt.loop (fun N height => N.indexBlock node c height (w.block height)) N (heights start tip)

/-- Where the blocks of a tick start, with what was written before. -/
inductive Opening
  | ends (N : Indexer) (outcome : TickOutcome)
  | starts (N : Indexer) (start tip : ℤ)

/-- A tick up to its blocks: the halts, the bootstrap, the fork search and the
rollback. -/
def beginTick (N : Indexer) (node : Node) (c : IndexerConfig) (w : TickAnswers) : Opening :=
  if N.postFinalityHalt.isSome then .ends N .postFinalityReorgHalted
  else if N.halted then .ends N .halted
  else match w.blockCount with
    | none => .ends N .failed
    | some tip => match N.chainTip with
      | none => match bootstrap node c w tip with
        | none => .ends N .failed
        | some start => .starts N start tip
      | some (localTip, _) => match N.findForkPoint node w.searchHash localTip c.maxReorgDepth with
        | .error _ => .ends N .failed
        | .ok none => .ends { N with halted := true } .halted
        | .ok (some fork) =>
          if fork = localTip then .starts N (localTip + 1) tip
          else if N.detectPostFinalityReorg fork ≠ [] then
            .ends (N.recordPostFinalityReorg fork localTip (N.detectPostFinalityReorg fork))
              .postFinalityReorgHalted
          else match node.hashAt fork w.forkHash with
            | none => .ends N .failed
            | some _ => .starts (N.rollbackReorg fork) (fork + 1) tip

/-- `tick`. -/
def tick (N : Indexer) (node : Node) (c : IndexerConfig) (w : TickAnswers) : Indexer × TickOutcome :=
  match N.beginTick node c w with
  | .ends N outcome => (N, outcome)
  | .starts N start tip =>
    match (N.indexBlocks node c w start tip).andThen fun N => N.promoteConfirming c tip w with
    | .done N => (N, .progressed)
    | .stopped N => (N, .failed)

end Indexer

end Service.Goldcoin
