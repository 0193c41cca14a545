-- SUMMARY: The decoder of a DepositCreated log, with its errors in the order it makes its checks, and what a decoded event says of the log it came from.
import ReserveBridge.Lib.Bytes
import ReserveBridge.Service.BeginRefund

/-!
# `DepositCreated`

`service/src/robinhood/deposit_event.rs`. The parameters are decoded by hand:
three indexed words among the topics, and the data with a fixed head of three
words and one dynamic tail. A hash function is a parameter.
-/

namespace Service.Robinhood
open Guard Bytes

/-- `EvmRawLog`: a log as an endpoint reports it. -/
structure EvmRawLog where
  address : ℕ
  topics : List Bytes32
  data : List UInt8
  blockNumber : ℕ
  blockHash : ℕ
  txHash : ℕ
  logIndex : ℕ
  removed : Bool
  deriving DecidableEq

/-- `DEPOSIT_CREATED_SIGNATURE`. -/
def depositCreatedSignature : String :=
  "DepositCreated(uint256,address,uint8,uint256,uint256,bytes)"

def depositCreatedTopic0 (keccak256 : List UInt8 → Bytes32) : Bytes32 :=
  keccak256 depositCreatedSignature.toUTF8.toList

structure DepositCreatedEvent where
  obligationIndex : ℕ
  route : Direction
  contractRouteId : ℕ
  depositor : ℕ
  destination : List UInt8
  amountWord : ℕ
  /-- The same amount, that is known to fit in 128 bits. -/
  amount : ℕ
  canonicalAmount : ℕ
  contract : ℕ
  txHash : ℕ
  logIndex : ℕ
  blockNumber : ℕ
  blockHash : ℕ
  deriving DecidableEq

inductive DepositDecodeError
  | notDepositCreated
  | wrongTopicCount (found : ℕ)
  | dirtyTopicPadding (topic : ℕ) (kind : String) (leading : ℕ)
  | wrongDataLength (expected found destinationLen : ℕ)
  | dataTooShort (found : ℕ)
  | unexpectedTailOffset (expected found : ℕ)
  | destinationLengthTooLarge (found : ℕ)
  | destinationLengthOutOfRange (found max : ℕ)
  | dirtyDestinationPadding
  | notAnInboundRoute (route : ℕ)
  | obligationIndexTooLarge (found : ℕ)
  | zeroAmount
  | amountTooLarge (amount : ℕ)
  | canonicalAmountTooLarge (canonical : ℕ)
  | canonicalAmountMismatch (amount : ℕ) (claimed : ℕ) (derived : Option ℕ)
  deriving DecidableEq, Repr

/-- `MAX_DESTINATION_LEN`. -/
def maxDestinationLen : ℕ := 64

/-- `INBOUND_DEPOSIT_ROUTES`. -/
def inboundDepositRoutes : List Direction := [.rhnToGlc, .rhnToSol]

def inboundRouteFromContractId (id : ℕ) : Option Direction :=
  inboundDepositRoutes.find? fun route => route.contractRouteId = some id

/-- `DATA_HEAD_LEN`. -/
def dataHeadLen : ℕ := 96

/-- `DESTINATION_TAIL_OFFSET`. -/
def destinationTailOffset : ℕ := 96

/-- `CANONICAL_TO_ROBINHOOD_SCALE`. -/
def canonicalToRobinhoodScale : ℕ := 10 ^ 10

def wordAt (data : List UInt8) (offset : ℕ) : ℕ := beValue ((data.drop offset).take 32)

/-- `RobinhoodAtomic::to_canonical`. -/
def toCanonical (amount : ℕ) : Option ℕ :=
  if amount % canonicalToRobinhoodScale = 0 ∧ amount / canonicalToRobinhoodScale < 2 ^ 64 then
    some (amount / canonicalToRobinhoodScale)
  else none

/-- Bytes that must be zero. -/
def AllZero (bs : List UInt8) : Prop := ∀ b ∈ bs, b = 0

instance (bs : List UInt8) : Decidable (AllZero bs) :=
  inferInstanceAs (Decidable (∀ b ∈ bs, b = 0))

def decodeDepositCreated (keccak256 : List UInt8 → Bytes32) (log : EvmRawLog) :
    Except DepositDecodeError DepositCreatedEvent := do
  require (log.topics.head? = some (depositCreatedTopic0 keccak256)) .notDepositCreated
  require (log.topics.length = 4) (.wrongTopicCount log.topics.length)
  let topic (n : ℕ) : List UInt8 := ((log.topics[n]?).map Vector.toList).getD []
  let obligationIndex := beValue (topic 1)
  require (obligationIndex < 2 ^ 64) (.obligationIndexTooLarge obligationIndex)
  -- an address is padded to a word on the left
  require (AllZero ((topic 2).take 12)) (.dirtyTopicPadding 2 "address" 12)
  let depositor := beValue ((topic 2).drop 12)
  require (AllZero ((topic 3).take 31)) (.dirtyTopicPadding 3 "uint8" 31)
  let contractRouteId := ((topic 3).getD 31 0).toNat
  let route ← orFail (inboundRouteFromContractId contractRouteId)
    (.notAnInboundRoute contractRouteId)
  require (dataHeadLen ≤ log.data.length) (.dataTooShort log.data.length)
  let amountWord := wordAt log.data 0
  let canonicalWord := wordAt log.data 32
  let offsetWord := wordAt log.data 64
  require (offsetWord = destinationTailOffset)
    (.unexpectedTailOffset destinationTailOffset offsetWord)
  require (dataHeadLen + 32 ≤ log.data.length) (.dataTooShort log.data.length)
  let declaredLen := wordAt log.data dataHeadLen
  require (declaredLen < 2 ^ 64) (.destinationLengthTooLarge declaredLen)
  require (declaredLen ≠ 0 ∧ declaredLen ≤ maxDestinationLen)
    (.destinationLengthOutOfRange declaredLen maxDestinationLen)
  let expectedLen := dataHeadLen + 32 + (declaredLen + 31) / 32 * 32
  require (log.data.length = expectedLen)
    (.wrongDataLength expectedLen log.data.length declaredLen)
  let payload := log.data.drop (dataHeadLen + 32)
  require (AllZero (payload.drop declaredLen)) .dirtyDestinationPadding
  require (amountWord ≠ 0) .zeroAmount
  require (amountWord < 2 ^ 128) (.amountTooLarge amountWord)
  let derived ← orFail (toCanonical amountWord)
    (.canonicalAmountMismatch amountWord canonicalWord none)
  require (canonicalWord < 2 ^ 64) (.canonicalAmountTooLarge canonicalWord)
  require (canonicalWord = derived) (.canonicalAmountMismatch amountWord canonicalWord (some derived))
  return {
    obligationIndex := obligationIndex
    route := route
    contractRouteId := contractRouteId
    depositor := depositor
    destination := payload.take declaredLen
    amountWord := amountWord
    amount := amountWord
    canonicalAmount := derived
    contract := log.address
    txHash := log.txHash
    logIndex := log.logIndex
    blockNumber := log.blockNumber
    blockHash := log.blockHash }

/-- An event is of the contract and of the block that its log names. -/
structure DepositCreatedEvent.Of (event : DepositCreatedEvent) (log : EvmRawLog) : Prop where
  contract : event.contract = log.address
  blockNumber : event.blockNumber = log.blockNumber
  blockHash : event.blockHash = log.blockHash

theorem decodeDepositCreated_of {keccak256 : List UInt8 → Bytes32} {log : EvmRawLog}
    {event : DepositCreatedEvent} (h : decodeDepositCreated keccak256 log = .ok event) :
    log.topics.head? = some (depositCreatedTopic0 keccak256) ∧ event.Of log := by
  simp only [decodeDepositCreated, bind_eq_ok, exists_unit, require_eq_ok, orFail_eq_ok,
    pure_eq_ok] at h
  obtain ⟨htopic, -, -, -, -, route, -, -, -, -, -, -, -, -, -, -, derived, -, -, -, rfl⟩ := h
  exact ⟨htopic, rfl, rfl, rfl⟩

/-- A log of this topic is never taken for another event. -/
theorem decodeDepositCreated_ne_notDepositCreated {keccak256 : List UInt8 → Bytes32}
    {log : EvmRawLog} (h : log.topics.head? = some (depositCreatedTopic0 keccak256)) :
    decodeDepositCreated keccak256 log ≠ .error .notDepositCreated := by
  simp [decodeDepositCreated, bind_eq_error, require_eq_error, orFail_eq_error, h, pure,
    Except.pure]

end Service.Robinhood
