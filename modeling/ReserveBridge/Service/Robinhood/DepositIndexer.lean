-- SUMMARY: The Robinhood deposit indexer against an endpoint whose best chain moves between any two calls: chains of blocks linked by hash, the tick with its reorg reconciliation, and the scan of a range in separate reads.
import ReserveBridge.Lib.Attempt
import ReserveBridge.Service.Robinhood.DepositEvent
import ReserveBridge.Service.Robinhood.Observations

/-!
# The deposit indexer

`service/src/robinhood/indexer.rs`. A tick makes its calls one after another, and
the endpoint answers each of them from the best chain it has at that time. The
store is written by the rollback, by each scanned range and by the promotion,
each in a transaction of its own.
-/

namespace Service.Robinhood
open Guard Bytes

/-! ## Chains -/

/-- A log of a block, without the place it has in the chain. -/
structure BlockLog where
  address : ℕ
  topics : List Bytes32
  data : List UInt8
  txHash : ℕ
  logIndex : ℕ
  deriving DecidableEq

structure Block where
  parentHash : ℕ
  logs : List BlockLog
  deriving DecidableEq

/-- Blocks by height, each with the hash of the one below it. -/
structure BestChain (hash : Block → ℕ) where
  blocks : List Block
  linked : blocks.IsChain fun b b' => b'.parentHash = hash b

/-- `EvmLogFilter`. -/
structure EvmLogFilter where
  fromBlock : ℕ
  toBlock : ℕ
  address : ℕ
  topic0 : Bytes32
  deriving DecidableEq

def EvmLogFilter.Matches (f : EvmLogFilter) (l : BlockLog) : Prop :=
  l.address = f.address ∧ l.topics.head? = some f.topic0

instance (f : EvmLogFilter) (l : BlockLog) : Decidable (f.Matches l) :=
  inferInstanceAs (Decidable (_ ∧ _))

namespace BestChain

variable {hash : Block → ℕ}

def head (X : BestChain hash) : ℕ := X.blocks.length - 1

def hashAt (X : BestChain hash) (height : ℕ) : Option ℕ := (X.blocks[height]?).map hash

/-- The log as it is reported from a block. -/
def rawLog (hash : Block → ℕ) (height : ℕ) (b : Block) (l : BlockLog) : EvmRawLog where
  address := l.address
  topics := l.topics
  data := l.data
  blockNumber := height
  blockHash := hash b
  txHash := l.txHash
  logIndex := l.logIndex
  removed := false

/-- The logs of one block that match the filter. -/
def logsAt (X : BestChain hash) (f : EvmLogFilter) (height : ℕ) : List EvmRawLog :=
  match X.blocks[height]? with
  | none => []
  | some b => (b.logs.filter fun l => f.Matches l).map (rawLog hash height b)

/-- The answer to `eth_getLogs` on this chain. -/
def logs (X : BestChain hash) (f : EvmLogFilter) : List EvmRawLog :=
  (List.range' f.fromBlock (f.toBlock + 1 - f.fromBlock)).flatMap (X.logsAt f)

/-- Fewer than `depth` blocks of the first chain are not on the second. -/
def ShallowReorg (depth : ℕ) (X Y : BestChain hash) : Prop :=
  X.blocks.take (X.blocks.length + 1 - depth) <+: Y.blocks

theorem removed_of_mem_logs {X : BestChain hash} {f : EvmLogFilter} {log : EvmRawLog}
    (h : log ∈ X.logs f) : log.removed = false := by
  obtain ⟨n, -, hlog⟩ := List.mem_flatMap.mp h
  unfold logsAt at hlog
  split at hlog
  · cases hlog
  · obtain ⟨l, -, rfl⟩ := List.mem_map.mp hlog
    rfl

end BestChain

/-! ## The endpoint -/

/-- An endpoint as one tick meets it: what it answers to the call of this number.
It is truthful about its best chain, and may name logs as removed besides. -/
structure Endpoint (hash : Block → ℕ) where
  /-- Whether the call gets an answer. -/
  answers : ℕ → Bool
  chainId : ℕ → ℕ
  chain : ℕ → BestChain hash
  getLogs : ℕ → EvmLogFilter → List EvmRawLog
  truthful : ∀ i f, ((getLogs i f).filter fun l => !l.removed) = (chain i).logs f

inductive IndexerError
  | rpc
  | ledger (e : ObservationError)
  | decode (txHash logIndex : ℕ) (source : DepositDecodeError)
  | missingBlock (block : ℕ)
  | logBlockHashMismatch (block logHash liveHash : ℕ)
  | contractMismatch (expected found : ℕ)
  deriving DecidableEq, Repr

inductive HaltReason
  | observationConflict | postFinalityReorg | reorgBeyondRetainedAnchors | chainIdMismatch
  | unexpectedContractRoute
  deriving DecidableEq, Repr

/-- Why a tick ends before its end. -/
inductive TickStop
  | error (e : IndexerError)
  | halt (reason : HaltReason)
  deriving DecidableEq, Repr

namespace Endpoint

variable {hash : Block → ℕ}

/-- One call. -/
def call {α : Type} (E : Endpoint hash) (i : ℕ) (answer : α) : Except TickStop α :=
  if E.answers i then .ok answer else .error (.error .rpc)

/-- An endpoint that answers every call, and names no removed logs. -/
def steady (chainId : ℕ) (chain : ℕ → BestChain hash) : Endpoint hash where
  answers _ := true
  chainId _ := chainId
  chain := chain
  getLogs i := (chain i).logs
  truthful i f := List.filter_eq_self.mpr fun log hlog => by
    rw [BestChain.removed_of_mem_logs hlog]
    rfl

/-- `eth_getBlockByNumber`. -/
def canonicalHash (E : Endpoint hash) (i block : ℕ) : Except TickStop (Option ℕ) :=
  E.call i ((E.chain i).hashAt block)

end Endpoint

/-! ## The indexer -/

structure IndexerConfig where
  chainId : ℕ
  bridgeContract : ℕ
  startBlock : ℕ
  confirmationDepth : ℕ
  maxLogBlockRange : ℕ
  keccak256 : List UInt8 → Bytes32

/-- The store, the persisted halt, and how many calls this tick has made. -/
structure Indexer where
  store : ObservationStore
  halt : Option (HaltReason × ℤ)
  calls : ℕ

/-- The highest block at or beyond `confirmationDepth` confirmations. -/
def finalizedFrontier (head confirmationDepth : ℕ) : Option ℕ :=
  if max confirmationDepth 1 ≤ head + 1 then some (head + 1 - max confirmationDepth 1) else none

namespace IndexerConfig

def filter (c : IndexerConfig) (fromBlock toBlock : ℕ) : EvmLogFilter :=
  ⟨fromBlock, toBlock, c.bridgeContract, depositCreatedTopic0 c.keccak256⟩

/-- The deepest block a rollback may go to. -/
def stabilityAnchor (c : IndexerConfig) (head : ℕ) : ℕ :=
  max ((finalizedFrontier head c.confirmationDepth).getD 0) c.startBlock

end IndexerConfig

/-- What is recorded of an event. -/
def DepositCreatedEvent.observation (event : DepositCreatedEvent) : DepositObservation where
  sourceContract := event.contract
  obligationIndex := event.obligationIndex
  route := event.route
  depositor := event.depositor
  destination := event.destination
  amountRobinhoodAtomic := event.amountWord
  amountCanonicalAtomic := event.canonicalAmount
  txHash := event.txHash
  logIndex := event.logIndex
  blockNumber := event.blockNumber
  blockHash := event.blockHash

/-- `BTreeMap::insert`, on the entries in the order of their keys. -/
def insertBlock (block blockHash : ℕ) : List (ℕ × ℕ) → List (ℕ × ℕ)
  | [] => [(block, blockHash)]
  | e :: rest =>
    if block < e.1 then (block, blockHash) :: e :: rest
    else if block = e.1 then (block, blockHash) :: rest
    else e :: insertBlock block blockHash rest

/-- What was read of a range so far: the observations, and the blocks that hold
them, with their hashes. -/
structure RangeLogs where
  observations : List DepositObservation
  depositBlocks : List (ℕ × ℕ)
  deriving DecidableEq

/-- The logs of a range, one after another. -/
def readLogs (c : IndexerConfig) (read : RangeLogs) : List EvmRawLog → Except TickStop RangeLogs
  | [] => return read
  | log :: logs =>
    if log.removed then readLogs c read logs
    else
      match decodeDepositCreated c.keccak256 log with
      | .error .notDepositCreated => readLogs c read logs
      | .error (.notAnInboundRoute _) => .error (.halt .unexpectedContractRoute)
      | .error source => .error (.error (.decode log.txHash log.logIndex source))
      | .ok event => do
        require (event.contract = c.bridgeContract)
          (.error (.contractMismatch c.bridgeContract event.contract))
        readLogs c
          { observations := read.observations ++ [event.observation]
            depositBlocks := insertBlock event.blockNumber event.blockHash read.depositBlocks }
          logs

section Tick

variable {hash : Block → ℕ}

/-- Every block that holds a deposit is read again, by one call each. -/
def readDepositBlocks (E : Endpoint hash) : ℕ → List (ℕ × ℕ) → Except TickStop (List (ℕ × ℕ))
  | _, [] => return []
  | i, (block, claimed) :: rest => do
    let found ← E.canonicalHash i block
    let live ← orFail found (.error (.missingBlock block))
    require (live = claimed) (.error (.logBlockHashMismatch block claimed live))
    let anchors ← readDepositBlocks E (i + 1) rest
    return (block, live) :: anchors

/-- The anchor at the finality frontier, unless it is above the range. -/
def readStabilityAnchor (c : IndexerConfig) (E : Endpoint hash) (i head toBlock : ℕ) :
    Except TickStop (List (ℕ × ℕ)) :=
  if c.stabilityAnchor head < toBlock then do
    let found ← E.canonicalHash i (c.stabilityAnchor head)
    let live ← orFail found (.error (.missingBlock (c.stabilityAnchor head)))
    return [(c.stabilityAnchor head, live)]
  else return []

/-- What the calls of a range gave. -/
structure RangeRead where
  observations : List DepositObservation
  anchors : List (ℕ × ℕ)
  cursorHash : ℕ
  calls : ℕ

/-- The reads of `scan_chunk`: the logs, the blocks of deposits, the block at the
frontier, and last the new cursor. -/
def readRange (c : IndexerConfig) (E : Endpoint hash) (head i fromBlock toBlock : ℕ) :
    Except TickStop RangeRead := do
  let logs ← E.call i (E.getLogs i (c.filter fromBlock toBlock))
  let read ← readLogs c ⟨[], []⟩ logs
  let depositAnchors ← readDepositBlocks E (i + 1) read.depositBlocks
  let stability ← readStabilityAnchor c E (i + 1 + read.depositBlocks.length) head toBlock
  let last := i + 1 + read.depositBlocks.length + stability.length
  let found ← E.canonicalHash last toBlock
  let cursorHash ← orFail found (.error (.missingBlock toBlock))
  return ⟨read.observations, depositAnchors ++ stability, cursorHash, last + 1⟩

namespace Indexer

/-- The first halt stays. -/
def recordHalt (N : Indexer) (reason : HaltReason) (now : ℤ) : Indexer :=
  { N with halt := some (N.halt.getD (reason, now)) }

/-- An operator clears the halt. -/
def clearHalt (N : Indexer) : Indexer := { N with halt := none }

/-- The end of a tick that does not get to its end. -/
def stop (N : Indexer) (now : ℤ) : TickStop → Indexer
  | .error _ => N
  | .halt reason => N.recordHalt reason now

def scanChunk (c : IndexerConfig) (E : Endpoint hash) (head : ℕ) (now : ℤ) (N : Indexer)
    (range : ℕ × ℕ) : Attempt Indexer :=
  match readRange c E head N.calls range.1 range.2 with
  | .error e => .stopped (N.stop now e)
  | .ok read =>
    match N.store.robinhoodApplyScanRange read.observations read.anchors range.2 read.cursorHash
        c.confirmationDepth now with
    | .ok (store, _) => .done { N with store := store, calls := read.calls }
    | .error (.observationConflict _) => .stopped (N.stop now (.halt .observationConflict))
    | .error (.postFinalityReorg _ _) => .stopped (N.stop now (.halt .postFinalityReorg))
    | .error e => .stopped (N.stop now (.error (.ledger e)))

/-- The newest anchor that the endpoint still has, and the calls it took. -/
def findFork (E : Endpoint hash) : ℕ → List (ℕ × ℕ) → Except TickStop (Option (ℕ × ℕ) × ℕ)
  | i, [] => return (none, i)
  | i, (block, stored) :: rest => do
    let live ← E.canonicalHash i block
    if live = some stored then return (some (block, stored), i + 1)
    else findFork E (i + 1) rest

/-- The newest anchor that still agrees becomes the cursor. Returns the block
the scan goes on from. -/
def reconcileReorg (E : Endpoint hash) (N : Indexer) (cursorBlock cursorHash : ℕ) (now : ℤ) :
    Except TickStop (Indexer × ℕ) := do
  let anchors := N.store.robinhoodScanAnchorsDesc
  let (fork, calls) ← findFork E N.calls anchors
  match fork with
  | none =>
    let deepest := ((anchors.getLast?).map Prod.fst).getD cursorBlock
    let finalizedAbove ← (N.store.robinhoodFinalObservationsAbove (deepest - 1)).mapError
      fun e => .error (.ledger e)
    require (finalizedAbove = []) (.halt .postFinalityReorg)
    .error (.halt .reorgBeyondRetainedAnchors)
  | some (forkBlock, forkHash) =>
    let finalizedAbove ← (N.store.robinhoodFinalObservationsAbove forkBlock).mapError
      fun e => .error (.ledger e)
    require (finalizedAbove = []) (.halt .postFinalityReorg)
    let (store, _) ← (N.store.robinhoodRollbackReorg forkBlock forkHash cursorBlock cursorHash
      now).mapError fun e => .error (.ledger e)
    return ({ N with store := store, calls := calls }, forkBlock + 1)

/-- Before the scan: the chain id, the head, and the cursor against the chain.
Returns the head and the block the scan goes on from. -/
def prepare (c : IndexerConfig) (E : Endpoint hash) (N : Indexer) (now : ℤ) :
    Except TickStop (Indexer × ℕ × ℕ) := do
  let chainId ← E.call 0 (E.chainId 0)
  require (chainId = c.chainId) (.halt .chainIdMismatch)
  let head ← E.call 1 (E.chain 1).head
  match N.store.robinhoodScanCursor with
  | none => return ({ N with calls := 2 }, head, c.startBlock)
  | some (cursorBlock, cursorHash) =>
    let live ← E.canonicalHash 2 cursorBlock
    if live = some cursorHash then return ({ N with calls := 3 }, head, cursorBlock + 1)
    else
      let (N, scanFrom) ← reconcileReorg E { N with calls := 3 } cursorBlock cursorHash now
      return (N, head, scanFrom)

/-- The ranges of `while from <= head`, of which there are at most as many as
blocks. -/
def chunks (maxLogBlockRange head : ℕ) : ℕ → ℕ → List (ℕ × ℕ)
  | 0, _ => []
  | blocks + 1, fromBlock =>
    if fromBlock ≤ head then
      let toBlock := min (fromBlock + (maxLogBlockRange - 1)) head
      (fromBlock, toBlock) :: chunks maxLogBlockRange head blocks (toBlock + 1)
    else []

def promote (c : IndexerConfig) (head : ℕ) (now : ℤ) (N : Indexer) : Indexer :=
  match N.store.robinhoodPromoteFinal head c.confirmationDepth now with
  | .ok (store, _) => { N with store := store }
  | .error _ => N

def tick (c : IndexerConfig) (E : Endpoint hash) (now : ℤ) (N : Indexer) : Indexer :=
  if N.halt.isSome then N
  else
    match prepare c E N now with
    | .error e => N.stop now e
    | .ok (N, head, scanFrom) =>
      match Attempt.loop (scanChunk c E head now) N
          (chunks c.maxLogBlockRange head (head + 1 - scanFrom) scanFrom) with
      | .stopped N => N
      | .done N => promote c head now N

end Indexer

end Tick

/-! ## Runs -/

/-- A tick with the endpoint it meets, or an operator who clears the halt. -/
inductive IndexerOp (hash : Block → ℕ)
  | tick (E : Endpoint hash) (now : ℤ)
  | clearHalt

namespace Indexer

variable {hash : Block → ℕ}

def step (c : IndexerConfig) (N : Indexer) : IndexerOp hash → Option Indexer
  | .tick E now => some (tick c E now N)
  | .clearHalt => some N.clearHalt

def init : Indexer := ⟨.empty, none, 0⟩

/-- The indexer after a run from the empty store. -/
def after (c : IndexerConfig) (ops : List (IndexerOp hash)) : Indexer :=
  Run.final (step c) init ops

end Indexer

end Service.Robinhood
