-- SUMMARY: The Solana indexer as a state machine over the ledger: what a tick reads, the price and the refusal of one obligation, its fold on either route, the cursor, and crashes between any two commits.
import ReserveBridge.Service.BridgeRate
import ReserveBridge.Service.Ledger.Effects
import ReserveBridge.Service.SolanaAccounts

/-!
# The Solana indexer

`service/src/solana/indexer.rs`. A tick reads the obligation count of the
program, fetches the obligations from the stored count on, folds them one by one
and stores the new count. Each fold and the count are commits of their own, so a
tick is cut into its commits here, and may stop between any two.
-/

namespace Service
open Guard

/-! ## Errors -/

/-- `SolanaRpcError`. -/
inductive SolanaRpcError
  | transport (text : String)
  | method (text : String)
  | malformed (text : String)
  deriving DecidableEq

def SolanaRpcError.isRetriable : SolanaRpcError → Bool
  | transport _ => true
  | _ => false

inductive SolanaIndexerError
  | nodeUnavailable (e : SolanaRpcError)
  | rpc (e : SolanaRpcError)
  | notInitialized
  | staleOrInconsistentChainState (lastSynced observed : ℕ)
  | missingObligationAccount (index : ℕ)
  /-- `obligation {index}: {e}`, as malformed data. -/
  | malformedObligation (index : ℕ) (e : ConversionError)
  /-- The net is not representable at Robinhood's precision. -/
  | malformedNet (index : ℕ) (net : U64)
  | ledger (e : LedgerError)

/-- `SolanaIndexer::call`, after its retries. -/
def SolanaIndexerError.call {α : Type} (answer : Except SolanaRpcError α) :
    Except SolanaIndexerError α :=
  answer.mapError fun e => if e.isRetriable then .nodeUnavailable e else .rpc e

/-! ## Prices -/

/-- Why the rate book strikes no quote. -/
inductive RateBookError
  | refused (refusal : RateRefusal)
  | conversion (e : ConversionError)

/-- `RateBook::quote`, by route, gross, fee rate, time and destination scale: the
quote, and whether it left the price band. -/
abbrev RateBook := Direction → U64 → ℕ → ℤ → ℕ → Except RateBookError (BridgeQuote × Bool)

structure FoldPricing where
  quote : Option BridgeQuote
  breakdown : FeeBreakdown
  park : Option FoldRefusal

/-- `price_final_deposit`: without a rate the deposit is priced at one to one and
parked. -/
def priceFinalDeposit (book : RateBook) (route : Direction) (grossIn : U64) (feeBps : ℕ) (now : ℤ)
    (destinationScale : ℕ) : Except ConversionError FoldPricing :=
  match book route grossIn feeBps now destinationScale with
  | .ok (quote, band) =>
    .ok ⟨some quote, quote.breakdown, if band then some .bandExceeded else none⟩
  | .error (.refused refusal) => do
    let breakdown ← computeFeeAtBps grossIn feeBps
    return ⟨none, breakdown, some (.rate refusal)⟩
  | .error (.conversion e) => .error e

/-- What the fold stores of a price. -/
def FoldPricing.amounts (p : FoldPricing) (gross : U64) : RequestAmounts where
  gross := gross
  feeBps := p.breakdown.feeBps
  fee := p.breakdown.fee
  net := p.breakdown.net
  netDestination := p.breakdown.net
  quote := p.quote.map fun q => ⟨q.grossIn, q.feeBps, q.feeOut, q.netOut⟩

/-- `solana_to_goldcoin_atomic`. -/
def solanaToGoldcoinAtomic (amount : U64) (solanaDecimals : ℕ) : Except ConversionError U64 :=
  convertAtomicAmount amount solanaDecimals goldcoinDecimals

/-! ## Source limits -/

def Direction.text : Direction → String
  | glcToSol => "GlcToSol"
  | solToGlc => "SolToGlc"
  | glcToRhn => "GlcToRhn"
  | rhnToGlc => "RhnToGlc"
  | rhnToSol => "RhnToSol"
  | solToRhn => "SolToRhn"

/-- `source_maximum`, in whole coins of 8 decimals. -/
def sourceMaximum (route : Direction) : ℕ :=
  if route.sourceIsRobinhood then 20000 * 10 ^ 8 else 50000 * 10 ^ 8

/-- `enforce_source_minimum_at`, and what the indexer says of a refusal. -/
def belowSourceMinimum (route : Direction) (gross minimum : U64) : Option FoldRefusal :=
  if gross < minimum then
    some (.other s!"below source minimum: {route.text}: {gross.val} is below the {minimum.val} minimum transfer (canonical 8dp). The bridge fee is deducted after this check, so the amount that arrives is smaller than this and that is expected — but the amount SENT may not be")
  else none

/-- `enforce_source_maximum`, and what the indexer says of a refusal. -/
def aboveSourceMaximum (route : Direction) (gross : U64) : Option FoldRefusal :=
  if sourceMaximum route < gross.val then
    some (.other s!"above source maximum: {route.text}: {gross.val} is above the {sourceMaximum route} maximum transfer (canonical 8dp). This is the bridge's limit on the amount SENT; the amount that arrives is the bridge rate's business")
  else none

/-! ## Recipients -/

/-- `destination_is_robinhood`: the text starts with `0x`. -/
def destinationIsRobinhood (payload : Bytes) : Bool := [48, 120].isPrefixOf payload

/-- `parse_robinhood_destination`. The parser of an address is a parameter. -/
def parseRobinhoodDestination (parseEvmAddress : Bytes → Except String Bytes) (payload : Bytes) :
    Except String Bytes := do
  let address ← parseEvmAddress payload
  require (∃ b ∈ address, b ≠ 0) "the zero address is the EVM burn sink, not a payout destination"
  return address

/-! ## The indexer -/

/-- What the indexer is configured with. -/
structure SolanaIndexerConfig where
  feeBps : ℕ
  /-- The fee rate of `SolToRhn`, where that route is priced. -/
  solToRhn : Option ℕ
  sourceMinimum : U64
  parseEvmAddress : Bytes → Except String Bytes

/-- A tick that has fetched its obligations and has some left to fold. -/
structure SolanaTick where
  config : SolanaIndexerConfig
  obligationCount : ℕ
  slot : ℕ
  decimals : ℕ
  now : ℤ
  routeOpen : Bool
  /-- `destination_admissible_from`, at the limits that were read. -/
  destinationMax : Option (RailPrices → Option U64)
  remaining : List (ℕ × SolanaAccounts.WithdrawalObligationSnapshot)

/-- The row of `solana_indexer_state`. -/
structure SolanaIndexerState where
  lastObligationCount : ℕ
  lastCheckedSlot : ℕ
  updatedAt : ℤ

/-- The database, and the tick that is running. -/
structure SolanaIndexer where
  ledger : Ledger
  state : Option SolanaIndexerState
  tick : Option SolanaTick

namespace SolanaTick

variable (t : SolanaTick)

/-- The amount of an obligation, in canonical units. -/
def grossCanonical (index : ℕ) (amount : UInt64) : Except SolanaIndexerError U64 :=
  (solanaToGoldcoinAtomic amount.toFin t.decimals).mapError (.malformedObligation index)

/-- The fold of an obligation on the Goldcoin route. -/
def foldToGoldcoin (book : RateBook) (l : Ledger) (index : ℕ)
    (snap : SolanaAccounts.WithdrawalObligationSnapshot) : Except SolanaIndexerError Ledger := do
  let gross ← t.grossCanonical index snap.amount
  let pricing ← (priceFinalDeposit book .solToGlc gross t.config.feeBps t.now 1).mapError
    (.malformedObligation index)
  let refusal := belowSourceMinimum .solToGlc gross t.config.sourceMinimum <|>
    aboveSourceMaximum .solToGlc gross <|> pricing.park
  (l.foldSolDeposit snap.index.toNat (pricing.amounts gross) snap.requester.toList snap.glcAddress
    refusal t.now).mapError .ledger

/-- Why a quoted deposit cannot be paid within the limits of the contract. -/
def overDestinationBound (pricing : FoldPricing) (gross : U64) : Option FoldRefusal := do
  let admissible ← t.destinationMax
  let quote ← pricing.quote
  let max ← admissible
    ⟨quote.sourcePrice, quote.destinationPrice, quote.sourceFeedAt, quote.destinationFeedAt⟩
  if max < gross then some .destinationPayoutOutOfBounds else none

/-- `fold_to_robinhood`. -/
def foldToRobinhood (feeBps : ℕ) (book : RateBook) (l : Ledger)
    (snap : SolanaAccounts.WithdrawalObligationSnapshot) : Except SolanaIndexerError Ledger := do
  let index := snap.index.toNat
  let gross ← t.grossCanonical index snap.amount
  let pricing ← (priceFinalDeposit book .solToRhn gross feeBps t.now 1).mapError
    (.malformedObligation index)
  require (pricing.breakdown.net.val * 10 ^ 10 < 2 ^ 128) (.malformedNet index pricing.breakdown.net)
  let recipient := parseRobinhoodDestination t.config.parseEvmAddress snap.glcAddress
  let refusal := match recipient with
    | .error detail => some (.other s!"undeliverable destination: {detail}")
    | .ok _ => belowSourceMinimum .solToRhn gross t.config.sourceMinimum <|>
        aboveSourceMaximum .solToRhn gross <|> t.overDestinationBound pricing gross <|> pricing.park
  (l.foldSolDepositToRobinhood index (pricing.amounts gross) snap.requester.toList recipient.toOption
    snap.glcAddress t.routeOpen refusal t.now).mapError .ledger

/-- One pass of the loop: the spelling of the recipient decides on the route, where
`SolToRhn` is priced. -/
def foldObligation (book : RateBook) (l : Ledger) (index : ℕ)
    (snap : SolanaAccounts.WithdrawalObligationSnapshot) : Except SolanaIndexerError Ledger :=
  match t.config.solToRhn with
  | some feeBps =>
    if destinationIsRobinhood snap.glcAddress then t.foldToRobinhood feeBps book l snap
    else t.foldToGoldcoin book l index snap
  | none => t.foldToGoldcoin book l index snap

end SolanaTick

/-- What the endpoint and the database answer in a tick, up to the loop. -/
structure SolanaTickReads where
  slot : Except SolanaRpcError ℕ
  configAccount : Except SolanaRpcError (Option Bytes)
  /-- A failed read of the stored count is taken for no count. -/
  stateReadable : Bool
  /-- `get_multiple_accounts`, by the indices that were asked for. -/
  accounts : List ℕ → Except SolanaRpcError (List (Option Bytes))
  decimals : Except SolanaRpcError ℕ
  now : ℤ
  routeOpen : Bool
  destinationMax : Option (RailPrices → Option U64)

/-- The obligations that were fetched, in order. -/
def decodeFetched : List (Option Bytes × ℕ) →
    Except SolanaIndexerError (List SolanaAccounts.WithdrawalObligationSnapshot)
  | [] => return []
  | (maybeAccount, index) :: fetched => do
    let data ← orFail maybeAccount (.missingObligationAccount index)
    let snap ← (SolanaAccounts.decodeWithdrawalObligation data).mapError fun text =>
      SolanaIndexerError.rpc (.malformed text)
    let snaps ← decodeFetched fetched
    return snap :: snaps

namespace SolanaIndexer

/-- `last_synced_obligation_count`. -/
def lastSyncedObligationCount (s : SolanaIndexer) : ℕ :=
  s.state.elim 0 SolanaIndexerState.lastObligationCount

def setLastSyncedObligationCount (s : SolanaIndexer) (count slot : ℕ) (now : ℤ) : SolanaIndexer :=
  { s with state := some ⟨count, slot, now⟩ }

/-- `tick`, up to its loop. Where there is nothing new, it ends here. -/
def beginTick (s : SolanaIndexer) (config : SolanaIndexerConfig) (r : SolanaTickReads) :
    Except SolanaIndexerError SolanaIndexer := do
  let slot ← SolanaIndexerError.call r.slot
  let account ← SolanaIndexerError.call r.configAccount
  let data ← orFail account .notInitialized
  let snapshot ← (SolanaAccounts.decodeBridgeConfig data).mapError fun text =>
    SolanaIndexerError.rpc (.malformed text)
  let observed := snapshot.obligationCount.toNat
  let lastSynced := if r.stateReadable then s.lastSyncedObligationCount else 0
  require (lastSynced ≤ observed) (.staleOrInconsistentChainState lastSynced observed)
  if observed = lastSynced then
    return s.setLastSyncedObligationCount lastSynced slot r.now
  let newIndices := List.range' lastSynced (observed - lastSynced)
  let fetched ← SolanaIndexerError.call (r.accounts newIndices)
  let decimals ← SolanaIndexerError.call r.decimals
  let snaps ← decodeFetched (fetched.zip newIndices)
  -- the contract is read only for a deposit that is bound for it
  let bound : Bool := config.solToRhn.isSome && snaps.any fun snap => destinationIsRobinhood snap.glcAddress
  return { s with
    tick := some {
      config := config
      obligationCount := observed
      slot := slot
      decimals := decimals
      now := r.now
      routeOpen := r.routeOpen
      destinationMax := if bound then r.destinationMax else none
      remaining := newIndices.zip snaps } }

end SolanaIndexer

/-! ## Steps -/

inductive SolanaIndexerOp
  | beginTick (config : SolanaIndexerConfig) (reads : SolanaTickReads)
  | foldNext (book : RateBook)
  | finishTick
  /-- The process stops, or a call of the loop fails. -/
  | crash
  /-- A transaction of any other part of the service. -/
  | ledger (op : Op)

namespace SolanaIndexer

/-- One step. A fold that fails ends the tick; only the indexer folds Solana
deposits. -/
def step (s : SolanaIndexer) : SolanaIndexerOp → Option SolanaIndexer
  | .beginTick config reads =>
    match s.tick with
    | some _ => none
    | none => (s.beginTick config reads).toOption
  | .foldNext book =>
    match s.tick with
    | none => none
    | some t =>
      match t.remaining with
      | [] => none
      | (index, snap) :: remaining =>
        match t.foldObligation book s.ledger index snap with
        | .ok l => some { s with ledger := l, tick := some { t with remaining := remaining } }
        | .error _ => some { s with tick := none }
  | .finishTick =>
    match s.tick with
    | none => none
    | some t =>
      if t.remaining = [] then
        some { s.setLastSyncedObligationCount t.obligationCount t.slot t.now with tick := none }
      else none
  | .crash => some { s with tick := none }
  | .ledger op =>
    if op.foldsSolana then none
    else (s.ledger.step op).map fun l => { s with ledger := l }

/-- Before anything was configured. -/
def start : SolanaIndexer := ⟨Ledger.empty, none, none⟩

/-- The state after a run. -/
abbrev after (ops : List SolanaIndexerOp) : SolanaIndexer := Run.final step start ops

end SolanaIndexer

end Service
