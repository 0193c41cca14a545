-- SUMMARY: The authorization payloads and request ids the service hashes, and that each preimage is the contract's own and names one authorization or operation.
import ReserveBridge.Evm.Authorities
import ReserveBridge.Lib.Bytes
import ReserveBridge.Service.BeginRefund

/-!
# Authorization payloads

`service/src/robinhood/auth.rs`: the struct hashes of the four payloads the
service asks its signers for, and the derivation of request ids. Both are
compared as the bytes that are hashed, and the hash is any function. The words
of the contract become bytes as `abi.encode` writes them.
-/

namespace Service.Robinhood.Auth
open Guard Bytes

/-- A 20-byte account. -/
abbrev EvmAddress := Vector UInt8 20

/-- `keccak256`. -/
abbrev Keccak := List UInt8 → Bytes32

/-! ## Words -/

/-- `EvmU256::from_u128(value).to_be_bytes()`. -/
def encodeUint128 (value : ℕ) : List UInt8 := List.replicate 16 0 ++ beBytes 16 value

/-- `encode_address`. -/
def encodeAddress (value : EvmAddress) : List UInt8 := List.replicate 12 0 ++ value.toList

@[simp] theorem length_encodeUint128 (value : ℕ) : (encodeUint128 value).length = 32 := by
  simp [encodeUint128]

@[simp] theorem length_encodeAddress (value : EvmAddress) : (encodeAddress value).length = 32 := by
  simp [encodeAddress]

theorem encodeUint128_eq {value : ℕ} (h : value < 2 ^ 128) :
    encodeUint128 value = beBytes 32 value :=
  (beBytes_add (m := 16) (by omega) 16).symm

theorem encodeAddress_eq (value : EvmAddress) :
    encodeAddress value = beBytes 32 (beValue value.toList) := by
  have hlt : beValue value.toList < 256 ^ 20 := by
    have hlt := beValue_lt value.toList
    rwa [Vector.length_toList] at hlt
  rw [encodeAddress, beBytes_add hlt 12, beBytes_beValue value.length_toList]

theorem encodeUint128_inj {x y : ℕ} (hx : x < 2 ^ 128) (hy : y < 2 ^ 128)
    (h : encodeUint128 x = encodeUint128 y) : x = y := by
  rw [encodeUint128_eq hx, encodeUint128_eq hy] at h
  exact beBytes_inj (by omega) (by omega) h

theorem encodeAddress_inj {x y : EvmAddress} (h : encodeAddress x = encodeAddress y) : x = y :=
  Vector.toList_inj.mp (List.append_cancel_left h)

/-! ## Payloads -/

def actionPayout : UInt8 := 0x01
def actionRefund : UInt8 := 0x02
def actionSettle : UInt8 := 0x03
def actionTreasuryWithdraw : UInt8 := 0x0C

def payoutType : String :=
  "PayoutAuth(uint8 action,uint8 route,uint64 protocolSourceChainId," ++
  "uint64 protocolDestChainId,address token,bytes32 requestId,address recipient,uint256 amount," ++
  "uint64 signerEpoch,uint64 expiry)"

def refundType : String :=
  "RefundAuth(uint8 action,uint8 route,uint64 protocolSourceChainId," ++
  "uint64 protocolDestChainId,address token,bytes32 requestId,uint256 obligationIndex," ++
  "address recipient,uint256 amount,uint64 signerEpoch,uint64 expiry)"

def settlementType : String :=
  "SettlementAuth(uint8 action,uint8 route,uint64 protocolSourceChainId," ++
  "uint64 protocolDestChainId,bytes32 requestId,uint256 obligationIndex,uint64 signerEpoch," ++
  "uint64 expiry)"

def treasuryWithdrawType : String :=
  "TreasuryWithdrawAuth(uint8 action,address token,bytes32 requestId,address treasury," ++
  "uint256 amount,uint64 signerEpoch,uint64 expiry)"

/-- `as_bytes`. -/
def textBytes (s : String) : List UInt8 := s.toUTF8.data.toList

structure ProtocolChainPair where
  source : UInt64
  dest : UInt64
  deriving DecidableEq

/-- `AuthError`, with the route it names. -/
inductive AuthError
  | notAContractRoute (route : Direction)
  | notAPayoutRoute (route : Direction)
  | notADepositRoute (route : Direction)
  deriving DecidableEq

def isDepositRoute : Direction → Except AuthError Bool
  | .rhnToGlc | .rhnToSol => .ok true
  | .glcToRhn | .solToRhn => .ok false
  | route@.glcToSol | route@.solToGlc => .error (.notAContractRoute route)

def contractRoute (route : Direction) : Except AuthError ℕ :=
  orFail route.contractRouteId (.notAContractRoute route)

/-- Amounts are `RobinhoodAtomic`, an integer of 128 bits. -/
structure PayoutAuth where
  route : Direction
  chains : ProtocolChainPair
  token : EvmAddress
  requestId : Bytes32
  recipient : EvmAddress
  amount : Fin (2 ^ 128)
  signerEpoch : UInt64
  expiry : UInt64
  deriving DecidableEq

structure RefundAuth where
  route : Direction
  chains : ProtocolChainPair
  token : EvmAddress
  requestId : Bytes32
  obligationIndex : UInt64
  recipient : EvmAddress
  amount : Fin (2 ^ 128)
  signerEpoch : UInt64
  expiry : UInt64
  deriving DecidableEq

structure SettlementAuth where
  route : Direction
  chains : ProtocolChainPair
  requestId : Bytes32
  obligationIndex : UInt64
  signerEpoch : UInt64
  expiry : UInt64
  deriving DecidableEq

structure TreasuryWithdrawAuth where
  token : EvmAddress
  requestId : Bytes32
  treasury : EvmAddress
  amount : Fin (2 ^ 128)
  signerEpoch : UInt64
  expiry : UInt64
  deriving DecidableEq

/-- `EvmAuthPayload`. -/
inductive EvmAuthPayload
  | payout (a : PayoutAuth)
  | refund (a : RefundAuth)
  | settlement (a : SettlementAuth)
  | treasuryWithdraw (a : TreasuryWithdrawAuth)
  deriving DecidableEq

section StructHash

variable (keccak : Keccak)

/-- The words of `PAYOUT_TYPE`, under the route byte of the contract. -/
def PayoutAuth.encode (a : PayoutAuth) (route : ℕ) : List (List UInt8) :=
  [(keccak (textBytes payoutType)).toList, encodeUint128 actionPayout.toNat,
    encodeUint128 route, encodeUint128 a.chains.source.toNat, encodeUint128 a.chains.dest.toNat,
    encodeAddress a.token, a.requestId.toList, encodeAddress a.recipient,
    encodeUint128 a.amount.val, encodeUint128 a.signerEpoch.toNat, encodeUint128 a.expiry.toNat]

/-- The words of `REFUND_TYPE`. -/
def RefundAuth.encode (a : RefundAuth) (route : ℕ) : List (List UInt8) :=
  [(keccak (textBytes refundType)).toList, encodeUint128 actionRefund.toNat,
    encodeUint128 route, encodeUint128 a.chains.source.toNat, encodeUint128 a.chains.dest.toNat,
    encodeAddress a.token, a.requestId.toList, encodeUint128 a.obligationIndex.toNat,
    encodeAddress a.recipient, encodeUint128 a.amount.val, encodeUint128 a.signerEpoch.toNat,
    encodeUint128 a.expiry.toNat]

/-- The words of `SETTLEMENT_TYPE`. -/
def SettlementAuth.encode (a : SettlementAuth) (route : ℕ) : List (List UInt8) :=
  [(keccak (textBytes settlementType)).toList, encodeUint128 actionSettle.toNat,
    encodeUint128 route, encodeUint128 a.chains.source.toNat, encodeUint128 a.chains.dest.toNat,
    a.requestId.toList, encodeUint128 a.obligationIndex.toNat, encodeUint128 a.signerEpoch.toNat,
    encodeUint128 a.expiry.toNat]

/-- The words of `TREASURY_WITHDRAW_TYPE`. -/
def TreasuryWithdrawAuth.encode (a : TreasuryWithdrawAuth) : List (List UInt8) :=
  [(keccak (textBytes treasuryWithdrawType)).toList, encodeUint128 actionTreasuryWithdraw.toNat,
    encodeAddress a.token, a.requestId.toList, encodeAddress a.treasury,
    encodeUint128 a.amount.val, encodeUint128 a.signerEpoch.toNat, encodeUint128 a.expiry.toNat]

/-- What `PayoutAuth::struct_hash` feeds to the hash, word by word. -/
def PayoutAuth.words (a : PayoutAuth) : Except AuthError (List (List UInt8)) := do
  let route ← contractRoute a.route
  let deposit ← isDepositRoute a.route
  require (deposit = false) (.notAPayoutRoute a.route)
  return a.encode keccak route

/-- `RefundAuth::struct_hash`. -/
def RefundAuth.words (a : RefundAuth) : Except AuthError (List (List UInt8)) := do
  let route ← contractRoute a.route
  let deposit ← isDepositRoute a.route
  require (deposit = true) (.notADepositRoute a.route)
  return a.encode keccak route

/-- `SettlementAuth::struct_hash`. -/
def SettlementAuth.words (a : SettlementAuth) : Except AuthError (List (List UInt8)) := do
  let route ← contractRoute a.route
  let deposit ← isDepositRoute a.route
  require (deposit = true) (.notADepositRoute a.route)
  return a.encode keccak route

namespace EvmAuthPayload

/-- The words `struct_hash` hashes. `TreasuryWithdrawAuth::struct_hash` cannot fail. -/
def words : EvmAuthPayload → Except AuthError (List (List UInt8))
  | payout a => a.words keccak
  | refund a => a.words keccak
  | settlement a => a.words keccak
  | treasuryWithdraw a => .ok (a.encode keccak)

/-- The bytes `struct_hash` hashes. -/
def preimage (p : EvmAuthPayload) : Except AuthError (List UInt8) :=
  List.flatten <$> p.words keccak

def structHash (p : EvmAuthPayload) : Except AuthError Bytes32 := keccak <$> p.preimage keccak

def route : EvmAuthPayload → Option Direction
  | payout a => some a.route
  | refund a => some a.route
  | settlement a => some a.route
  | treasuryWithdraw _ => none

/-- The words of a payload under a route byte. -/
def encode (p : EvmAuthPayload) (route : ℕ) : List (List UInt8) :=
  match p with
  | payout a => a.encode keccak route
  | refund a => a.encode keccak route
  | settlement a => a.encode keccak route
  | treasuryWithdraw a => a.encode keccak

end EvmAuthPayload

end StructHash

@[simp] theorem contractRoute_eq_ok {route : Direction} {id : ℕ} :
    contractRoute route = .ok id ↔ route.contractRouteId = some id :=
  orFail_eq_ok

/-- A payload that is hashed is hashed under the byte of its route. -/
theorem words_ok {keccak : Keccak} {p : EvmAuthPayload} {ws : List (List UInt8)}
    (h : p.words keccak = .ok ws) :
    ∃ id, (∀ d ∈ p.route, d.contractRouteId = some id) ∧ ws = p.encode keccak id := by
  cases p with
  | treasuryWithdraw a => exact ⟨0, by simp [EvmAuthPayload.route], (Except.ok.inj h).symm⟩
  | payout a =>
    simp only [EvmAuthPayload.words, PayoutAuth.words, bind_eq_ok, contractRoute_eq_ok,
      require_eq_ok, pure_eq_ok, exists_unit] at h
    obtain ⟨id, hid, -, -, -, rfl⟩ := h
    exact ⟨id, by simp [EvmAuthPayload.route, hid], rfl⟩
  | refund a =>
    simp only [EvmAuthPayload.words, RefundAuth.words, bind_eq_ok, contractRoute_eq_ok,
      require_eq_ok, pure_eq_ok, exists_unit] at h
    obtain ⟨id, hid, -, -, -, rfl⟩ := h
    exact ⟨id, by simp [EvmAuthPayload.route, hid], rfl⟩
  | settlement a =>
    simp only [EvmAuthPayload.words, SettlementAuth.words, bind_eq_ok, contractRoute_eq_ok,
      require_eq_ok, pure_eq_ok, exists_unit] at h
    obtain ⟨id, hid, -, -, -, rfl⟩ := h
    exact ⟨id, by simp [EvmAuthPayload.route, hid], rfl⟩

/-! ## The contract's preimages -/

/-- The bytes the contract hashes: the text of a type, words as `abi.encode`
writes them, or the typed data of EIP-712. -/
def preimageBytes : Evm.Preimage → List UInt8
  | .text s => textBytes s
  | .encode words => (words.map (beBytes 32)).flatten
  | .typedData domainSeparator structHash =>
    [0x19, 0x01] ++ (beBytes 32 domainSeparator ++ beBytes 32 structHash)

/-- The primitives of the contract over a hash of bytes. -/
def crypto {Sig : Type} (keccak : Keccak) (recover : Evm.Word → Sig → Option Evm.Address) :
    Evm.Crypto Sig where
  keccak256 := fun p => beValue (keccak (preimageBytes p)).toList
  recover := recover

/-- The words of the struct of an authorization, as the contract hashes them. -/
def structWords {Sig : Type} (C : Evm.Crypto Sig) (I : Evm.Immutables) :
    Evm.Authorization → List Evm.Word
  | .payout req source dest =>
    [C.keccak256 (.text Evm.payoutType), Evm.actionPayout, req.route, source, dest, I.token,
      req.requestId, req.recipient, req.amount, req.signerEpoch, req.expiry]
  | .treasuryWithdraw req =>
    [C.keccak256 (.text Evm.treasuryWithdrawType), Evm.actionTreasuryWithdraw, I.token,
      req.requestId, req.treasury, req.amount, req.signerEpoch, req.expiry]
  | .refund req route source dest =>
    [C.keccak256 (.text Evm.refundType), Evm.actionRefund, route, source, dest, I.token,
      req.requestId, req.obligationIndex, req.recipient, req.amount, req.signerEpoch, req.expiry]
  | .settlement req route source dest =>
    [C.keccak256 (.text Evm.settlementType), Evm.actionSettle, route, source, dest, req.requestId,
      req.obligationIndex, req.signerEpoch, req.expiry]
  | .abandonment req route source dest =>
    [C.keccak256 (.text Evm.abandonmentType), Evm.actionAbandon, route, source, dest,
      req.requestId, req.obligationIndex, req.signerEpoch, req.expiry]
  | .governance action payload signerEpoch nonce expiry =>
    [C.keccak256 (.text Evm.governanceType), action, C.keccak256 (.encode payload), signerEpoch,
      nonce, expiry]

theorem structHash_eq {Sig : Type} (C : Evm.Crypto Sig) (I : Evm.Immutables)
    (a : Evm.Authorization) : a.structHash C I = C.keccak256 (.encode (structWords C I a)) := by
  cases a <;> rfl

/-- The request of a payout: the arguments of the call it is signed for. -/
def PayoutAuth.request (a : PayoutAuth) : Evm.PayoutRequest where
  route := a.route.contractRouteId.getD 0
  requestId := beValue a.requestId.toList
  recipient := beValue a.recipient.toList
  amount := a.amount.val
  signerEpoch := a.signerEpoch.toNat
  expiry := a.expiry.toNat

def RefundAuth.request (a : RefundAuth) : Evm.RefundRequest where
  requestId := beValue a.requestId.toList
  obligationIndex := a.obligationIndex.toNat
  recipient := beValue a.recipient.toList
  amount := a.amount.val
  signerEpoch := a.signerEpoch.toNat
  expiry := a.expiry.toNat

def SettlementAuth.request (a : SettlementAuth) : Evm.SettlementRequest where
  requestId := beValue a.requestId.toList
  obligationIndex := a.obligationIndex.toNat
  signerEpoch := a.signerEpoch.toNat
  expiry := a.expiry.toNat

def TreasuryWithdrawAuth.request (a : TreasuryWithdrawAuth) : Evm.TreasuryWithdrawRequest where
  requestId := beValue a.requestId.toList
  treasury := beValue a.treasury.toList
  amount := a.amount.val
  signerEpoch := a.signerEpoch.toNat
  expiry := a.expiry.toNat

/-- The call a payload is signed for. -/
def EvmAuthPayload.call {Sig : Type} (signatures : List Sig) : EvmAuthPayload → Evm.Call Sig
  | payout a => .executePayout a.request signatures
  | refund a => .executeRefund a.request signatures
  | settlement a => .executeSettlement a.request signatures
  | treasuryWithdraw a => .executeTreasuryWithdraw a.request signatures

/-- The chain pair is the one of the contract's own route table. -/
def Legs (I : Evm.Immutables) (route : Direction) (chains : ProtocolChainPair) : Prop :=
  ∀ id ∈ route.contractRouteId, ∃ inbound,
    Evm.routeLegs I id = .ok (chains.source.toNat, chains.dest.toNat, inbound)

/-- What the contract reads from itself is what the payload says: its token, the
legs of the route, and the route of the obligation. -/
def EvmAuthPayload.Agrees (I : Evm.Immutables) (s : Evm.Storage) : EvmAuthPayload → Prop
  | payout a => I.token = beValue a.token.toList ∧ Legs I a.route a.chains
  | refund a => I.token = beValue a.token.toList ∧ Legs I a.route a.chains ∧
    some (s.obligations a.obligationIndex.toNat).route = a.route.contractRouteId
  | settlement a => Legs I a.route a.chains ∧
    some (s.obligations a.obligationIndex.toNat).route = a.route.contractRouteId
  | treasuryWithdraw a => I.token = beValue a.token.toList

theorem payoutType_eq : payoutType = Evm.payoutType := by decide +kernel

theorem refundType_eq : refundType = Evm.refundType := by decide +kernel

theorem settlementType_eq : settlementType = Evm.settlementType := by decide +kernel

theorem treasuryWithdrawType_eq : treasuryWithdrawType = Evm.treasuryWithdrawType := by
  decide +kernel

/-! ## The service hashes what the contract hashes -/

theorem encodeUint128_uint8 (x : UInt8) : encodeUint128 x.toNat = beBytes 32 x.toNat :=
  encodeUint128_eq (x.toNat_lt.trans (by decide))

theorem encodeUint128_uint64 (x : UInt64) : encodeUint128 x.toNat = beBytes 32 x.toNat :=
  encodeUint128_eq (x.toNat_lt.trans (by decide))

theorem bytes32_eq (x : Bytes32) : x.toList = beBytes 32 (beValue x.toList) :=
  (beBytes_beValue x.length_toList).symm

/-- A route byte is a byte, and not zero. -/
theorem contractRouteId_bounds {route : Direction} {id : ℕ}
    (h : route.contractRouteId = some id) : 0 < id ∧ id < 2 ^ 8 := by
  cases route <;> simp [Direction.contractRouteId] at h <;> omega

theorem contractRouteId_lt {route : Direction} {id : ℕ} (h : route.contractRouteId = some id) :
    id < 2 ^ 128 :=
  (contractRouteId_bounds h).2.trans (by decide)

theorem contractRouteId_inj {route route' : Direction} {id : ℕ}
    (h : route.contractRouteId = some id) (h' : route'.contractRouteId = some id) :
    route = route' := by
  cases route <;> cases route' <;> simp [Direction.contractRouteId] at h h' ⊢ <;> omega

section Agreement

variable {Sig : Type} {keccak : Keccak} {recover : Evm.Word → Sig → Option Evm.Address}
  {I : Evm.Immutables} {s : Evm.Storage} {signatures : List Sig} {ws : List (List UInt8)}

/-- A payload's words are the contract's, in the call the payload is signed for. -/
theorem words_eq {p : EvmAuthPayload} (hp : p.words keccak = .ok ws) (hagrees : p.Agrees I s) :
    ∃ a, (p.call signatures).authorization I s = some a ∧
      ws = (structWords (crypto keccak recover) I a).map (beBytes 32) := by
  obtain ⟨id, hroute, rfl⟩ := words_ok hp
  cases p with
  | payout a =>
    have hid : a.route.contractRouteId = some id := hroute a.route rfl
    obtain ⟨htoken, hchains⟩ := hagrees
    obtain ⟨inbound, hlegs⟩ := hchains id hid
    refine ⟨.payout a.request a.chains.source.toNat a.chains.dest.toNat, ?_, ?_⟩
    · simp only [EvmAuthPayload.call, Evm.Call.authorization, PayoutAuth.request, hid,
        Option.getD_some, hlegs, Except.toOption, Option.map_some]
    · simp only [EvmAuthPayload.encode, PayoutAuth.encode, structWords, crypto, preimageBytes,
        payoutType_eq, encodeUint128_eq (contractRouteId_lt hid), encodeUint128_eq a.amount.isLt,
        encodeUint128_uint8, encodeUint128_uint64, encodeAddress_eq, List.map_cons, List.map_nil,
        htoken, PayoutAuth.request, hid, Option.getD_some]
      rw [← bytes32_eq, ← bytes32_eq]
      rfl
  | refund a =>
    have hid : a.route.contractRouteId = some id := hroute a.route rfl
    obtain ⟨htoken, hchains, hobligation⟩ := hagrees
    obtain ⟨inbound, hlegs⟩ := hchains id hid
    obtain rfl : (s.obligations a.obligationIndex.toNat).route = id :=
      Option.some.inj (hobligation.trans hid)
    refine ⟨.refund a.request (s.obligations a.obligationIndex.toNat).route a.chains.source.toNat
      a.chains.dest.toNat, ?_, ?_⟩
    · simp only [EvmAuthPayload.call, Evm.Call.authorization, RefundAuth.request, hlegs,
        Except.toOption, Option.map_some]
    · simp only [EvmAuthPayload.encode, RefundAuth.encode, structWords, crypto, preimageBytes,
        refundType_eq, encodeUint128_eq (contractRouteId_lt hid), encodeUint128_eq a.amount.isLt,
        encodeUint128_uint8, encodeUint128_uint64, encodeAddress_eq, List.map_cons, List.map_nil,
        htoken, RefundAuth.request]
      rw [← bytes32_eq, ← bytes32_eq]
      rfl
  | settlement a =>
    have hid : a.route.contractRouteId = some id := hroute a.route rfl
    obtain ⟨hchains, hobligation⟩ := hagrees
    obtain ⟨inbound, hlegs⟩ := hchains id hid
    obtain rfl : (s.obligations a.obligationIndex.toNat).route = id :=
      Option.some.inj (hobligation.trans hid)
    refine ⟨.settlement a.request (s.obligations a.obligationIndex.toNat).route
      a.chains.source.toNat a.chains.dest.toNat, ?_, ?_⟩
    · simp only [EvmAuthPayload.call, Evm.Call.authorization, SettlementAuth.request, hlegs,
        Except.toOption, Option.map_some]
    · simp only [EvmAuthPayload.encode, SettlementAuth.encode, structWords, crypto,
        preimageBytes, settlementType_eq, encodeUint128_eq (contractRouteId_lt hid),
        encodeUint128_uint8, encodeUint128_uint64, List.map_cons, List.map_nil,
        SettlementAuth.request]
      rw [← bytes32_eq, ← bytes32_eq]
      rfl
  | treasuryWithdraw a =>
    have htoken : I.token = beValue a.token.toList := hagrees
    refine ⟨.treasuryWithdraw a.request, rfl, ?_⟩
    simp only [EvmAuthPayload.encode, TreasuryWithdrawAuth.encode, structWords, crypto,
      preimageBytes, treasuryWithdrawType_eq, encodeUint128_eq a.amount.isLt, encodeUint128_uint8,
      encodeUint128_uint64, encodeAddress_eq, List.map_cons, List.map_nil, htoken,
      TreasuryWithdrawAuth.request]
    rw [← bytes32_eq, ← bytes32_eq]
    rfl

end Agreement

/-! ## One preimage, one authorization -/

theorem length_of_mem_encode {keccak : Keccak} {p : EvmAuthPayload} {id : ℕ} :
    ∀ w ∈ p.encode keccak id, w.length = 32 := by
  cases p <;>
    simp [EvmAuthPayload.encode, PayoutAuth.encode, RefundAuth.encode, SettlementAuth.encode,
      TreasuryWithdrawAuth.encode]

theorem uint64_inj {x y : UInt64} : encodeUint128 x.toNat = encodeUint128 y.toNat ↔ x = y := by
  have hx : x.toNat < 2 ^ 128 := x.toNat_lt.trans (by decide)
  have hy : y.toNat < 2 ^ 128 := y.toNat_lt.trans (by decide)
  exact ⟨fun h => UInt64.toNat_inj.mp (encodeUint128_inj hx hy h), fun h => h ▸ rfl⟩

theorem amount_inj {x y : Fin (2 ^ 128)} : encodeUint128 x.val = encodeUint128 y.val ↔ x = y :=
  ⟨fun h => Fin.ext (encodeUint128_inj x.isLt y.isLt h), fun h => h ▸ rfl⟩

theorem address_inj {x y : EvmAddress} : encodeAddress x = encodeAddress y ↔ x = y :=
  ⟨encodeAddress_inj, fun h => h ▸ rfl⟩

theorem route_inj {route route' : Direction} {id id' : ℕ} (hid : route.contractRouteId = some id)
    (hid' : route'.contractRouteId = some id') (h : encodeUint128 id = encodeUint128 id') :
    route = route' := by
  obtain rfl := encodeUint128_inj (contractRouteId_lt hid) (contractRouteId_lt hid') h
  exact contractRouteId_inj hid hid'

/-- Payloads of different kinds have different numbers of words, and those of one
kind list every field. -/
theorem encode_inj {keccak : Keccak} {p q : EvmAuthPayload} {id id' : ℕ}
    (hp : ∀ d ∈ p.route, d.contractRouteId = some id)
    (hq : ∀ d ∈ q.route, d.contractRouteId = some id')
    (h : p.encode keccak id = q.encode keccak id') : p = q := by
  cases p <;> cases q <;>
    simp only [EvmAuthPayload.encode, PayoutAuth.encode, RefundAuth.encode, SettlementAuth.encode,
      TreasuryWithdrawAuth.encode, List.cons.injEq, reduceCtorEq, and_false, and_true, true_and,
      uint64_inj, amount_inj, address_inj, Vector.toList_inj] at h
  case payout.payout a b =>
    obtain ⟨hid, hsource, hdest, htoken, hrequest, hrecipient, hamount, hepoch, hexpiry⟩ := h
    have hroute := route_inj (hp a.route rfl) (hq b.route rfl) hid
    obtain ⟨_, ⟨_, _⟩, _, _, _, _, _, _⟩ := a
    obtain ⟨_, ⟨_, _⟩, _, _, _, _, _, _⟩ := b
    clear hp hq hid
    simp_all
  case refund.refund a b =>
    obtain ⟨hid, hsource, hdest, htoken, hrequest, hindex, hrecipient, hamount, hepoch, hexpiry⟩ :=
      h
    have hroute := route_inj (hp a.route rfl) (hq b.route rfl) hid
    obtain ⟨_, ⟨_, _⟩, _, _, _, _, _, _, _⟩ := a
    obtain ⟨_, ⟨_, _⟩, _, _, _, _, _, _, _⟩ := b
    clear hp hq hid
    simp_all
  case settlement.settlement a b =>
    obtain ⟨hid, hsource, hdest, hrequest, hindex, hepoch, hexpiry⟩ := h
    have hroute := route_inj (hp a.route rfl) (hq b.route rfl) hid
    obtain ⟨_, ⟨_, _⟩, _, _, _, _⟩ := a
    obtain ⟨_, ⟨_, _⟩, _, _, _, _⟩ := b
    clear hp hq hid
    simp_all
  case treasuryWithdraw.treasuryWithdraw a b =>
    cases a
    cases b
    simp_all

theorem preimage_inj {keccak : Keccak} {p q : EvmAuthPayload} {bytes : List UInt8}
    (hp : p.preimage keccak = .ok bytes) (hq : q.preimage keccak = .ok bytes) : p = q := by
  obtain ⟨ws, hws, rfl⟩ := map_eq_ok.mp hp
  obtain ⟨ws', hws', hflat⟩ := map_eq_ok.mp hq
  obtain ⟨id, hid, rfl⟩ := words_ok hws
  obtain ⟨id', hid', rfl⟩ := words_ok hws'
  exact encode_inj hid hid' (flatten_inj (by decide) length_of_mem_encode length_of_mem_encode
    hflat.symm)

/-! ## Request ids -/

/-- `REQUEST_ID_DOMAIN`. -/
def requestIdDomain : List UInt8 := textBytes "glc.reserve-bridge.robinhood.request-id.v1"

/-- `BridgeDomain`. A chain id is not zero. -/
structure BridgeDomain where
  chainId : UInt64
  verifyingContract : EvmAddress
  chainId_ne : chainId ≠ 0

/-- The parts of a request id's preimage, one after the other. -/
def requestIdLayout (action routeByte : UInt8) (domain : BridgeDomain) (identity : List UInt8) :
    List UInt8 :=
  requestIdDomain ++ ([action] ++ ([routeByte] ++
    (domain.verifyingContract.toList ++ (beBytes 8 domain.chainId.toNat ++ identity))))

/-- What `derive_request_id` hashes. -/
def requestIdPreimage (action : UInt8) (route : Direction) (domain : BridgeDomain)
    (identity : List UInt8) : Except AuthError (List UInt8) := do
  let routeByte ← contractRoute route
  return requestIdLayout action (UInt8.ofNat routeByte) domain identity

/-- What `derive_treasury_withdraw_request_id` hashes, with a zero in place of a
route. -/
def treasuryWithdrawRequestIdPreimage (domain : BridgeDomain) (identity : List UInt8) :
    List UInt8 :=
  requestIdLayout actionTreasuryWithdraw 0 domain identity

/-- `derive_request_id`. -/
def deriveRequestId (keccak : Keccak) (action : UInt8) (route : Direction) (domain : BridgeDomain)
    (identity : List UInt8) : Except AuthError Bytes32 :=
  keccak <$> requestIdPreimage action route domain identity

/-- The durable identities of what operations answer. -/
inductive SourceIdentity
  | treasuryWithdrawal (rebalanceId requestedAt : Int64) (amountCanonical : UInt64)
  | goldcoin (txid : Bytes32) (vout : UInt32) (requestId : Int64)
  | obligation (obligationIndex : UInt64)
  | solana (programId : Bytes32) (obligationIndex : UInt64) (requestId : Int64)
  deriving DecidableEq

/-- `i64::to_be_bytes`. -/
def i64BeBytes (x : Int64) : List UInt8 := beBytes 8 x.toUInt64.toNat

/-- `treasury_withdrawal_identity`, `goldcoin_source_identity`,
`obligation_identity` and `solana_source_identity`. -/
def SourceIdentity.bytes : SourceIdentity → List UInt8
  | treasuryWithdrawal rebalanceId requestedAt amountCanonical =>
    i64BeBytes rebalanceId ++ (i64BeBytes requestedAt ++ beBytes 8 amountCanonical.toNat)
  | goldcoin txid vout requestId => txid.toList ++ (beBytes 4 vout.toNat ++ i64BeBytes requestId)
  | obligation obligationIndex => beBytes 8 obligationIndex.toNat
  | solana programId obligationIndex requestId =>
    programId.toList ++ (beBytes 8 obligationIndex.toNat ++ i64BeBytes requestId)

theorem beBytes_uint32_inj {x y : UInt32} : beBytes 4 x.toNat = beBytes 4 y.toNat ↔ x = y :=
  ⟨fun h => UInt32.toNat_inj.mp (beBytes_inj x.toNat_lt y.toNat_lt h), fun h => h ▸ rfl⟩

theorem beBytes_uint64_inj {x y : UInt64} : beBytes 8 x.toNat = beBytes 8 y.toNat ↔ x = y :=
  ⟨fun h => UInt64.toNat_inj.mp (beBytes_inj x.toNat_lt y.toNat_lt h), fun h => h ▸ rfl⟩

theorem i64BeBytes_inj {x y : Int64} : i64BeBytes x = i64BeBytes y ↔ x = y := by
  rw [i64BeBytes, i64BeBytes, beBytes_uint64_inj]
  cases x
  cases y
  simp

@[simp] theorem length_i64BeBytes (x : Int64) : (i64BeBytes x).length = 8 := length_beBytes _ _

/-- The four layouts have different lengths, and each has fields of fixed width. -/
theorem SourceIdentity.bytes_injective : Function.Injective SourceIdentity.bytes := by
  intro x y h
  have hlen := congrArg List.length h
  cases x <;> cases y <;> simp [SourceIdentity.bytes] at hlen
  case treasuryWithdrawal.treasuryWithdrawal =>
    simpa [SourceIdentity.bytes, append_eq_append, i64BeBytes_inj, beBytes_uint64_inj] using h
  case goldcoin.goldcoin =>
    simpa [SourceIdentity.bytes, append_eq_append, Vector.toList_inj, i64BeBytes_inj,
      beBytes_uint32_inj] using h
  case obligation.obligation =>
    simpa [SourceIdentity.bytes, beBytes_uint64_inj] using h
  case solana.solana =>
    simpa [SourceIdentity.bytes, append_eq_append, Vector.toList_inj, i64BeBytes_inj,
      beBytes_uint64_inj] using h

/-- An operation a request id is derived for. A treasury withdrawal has no route. -/
inductive Operation
  | routed (action : UInt8) (route : Direction) (domain : BridgeDomain) (identity : SourceIdentity)
  | treasuryWithdraw (domain : BridgeDomain) (identity : SourceIdentity)

def Operation.requestIdPreimage : Operation → Except AuthError (List UInt8)
  | routed action route domain identity =>
    Auth.requestIdPreimage action route domain identity.bytes
  | treasuryWithdraw domain identity => .ok (treasuryWithdrawRequestIdPreimage domain identity.bytes)

theorem uint8_ofNat_inj {x y : ℕ} (hx : x < 2 ^ 8) (hy : y < 2 ^ 8)
    (h : UInt8.ofNat x = UInt8.ofNat y) : x = y := by
  have hnat := congrArg UInt8.toNat h
  rwa [UInt8.toNat_ofNat_of_lt' hx, UInt8.toNat_ofNat_of_lt' hy] at hnat

/-- Everything before the identity has a fixed width. -/
theorem requestIdLayout_inj {action action' route route' : UInt8} {domain domain' : BridgeDomain}
    {identity identity' : List UInt8}
    (h : requestIdLayout action route domain identity =
      requestIdLayout action' route' domain' identity') :
    action = action' ∧ route = route' ∧ domain = domain' ∧ identity = identity' := by
  have hpair : ∀ {b b' : UInt8}, [b].length = [b'].length := rfl
  have haccount : ∀ {x y : EvmAddress}, x.toList.length = y.toList.length := by simp
  have hchain : ∀ {x y : ℕ}, (beBytes 8 x).length = (beBytes 8 y).length := by simp
  have hparts := List.append_cancel_left h
  simp only [append_eq_append hpair, append_eq_append haccount, append_eq_append hchain,
    List.cons.injEq, and_true, Vector.toList_inj, beBytes_uint64_inj] at hparts
  obtain ⟨haction, hroute, hcontract, hchainId, hidentity⟩ := hparts
  refine ⟨haction, hroute, ?_, hidentity⟩
  cases domain
  cases domain'
  congr

/-- The zero byte of a treasury withdrawal is the byte of no route. -/
theorem routeByte_ne_zero {route : Direction} {id : ℕ} (hid : route.contractRouteId = some id) :
    UInt8.ofNat id ≠ 0 := by
  obtain ⟨hpos, hlt⟩ := contractRouteId_bounds hid
  intro hzero
  have hid : id = 0 := uint8_ofNat_inj hlt (by decide) hzero
  omega

theorem Operation.requestIdPreimage_ok {o : Operation} {bytes : List UInt8}
    (h : o.requestIdPreimage = .ok bytes) :
    match o with
    | routed action route domain identity => ∃ id, route.contractRouteId = some id ∧
      bytes = requestIdLayout action (UInt8.ofNat id) domain identity.bytes
    | treasuryWithdraw domain identity =>
      bytes = requestIdLayout actionTreasuryWithdraw 0 domain identity.bytes := by
  cases o with
  | routed action route domain identity =>
    obtain ⟨id, hid, hbytes⟩ := bind_eq_ok.mp h
    exact ⟨id, contractRoute_eq_ok.mp hid, (pure_eq_ok.mp hbytes).symm⟩
  | treasuryWithdraw domain identity => exact (Except.ok.inj h).symm

theorem Operation.requestIdPreimage_inj {o o' : Operation} {bytes : List UInt8}
    (h : o.requestIdPreimage = .ok bytes) (h' : o'.requestIdPreimage = .ok bytes) : o = o' := by
  have hok := requestIdPreimage_ok h
  have hok' := requestIdPreimage_ok h'
  cases o with
  | routed action route domain identity =>
    obtain ⟨id, hid, rfl⟩ := hok
    cases o' with
    | routed action' route' domain' identity' =>
      obtain ⟨id', hid', heq⟩ := hok'
      obtain ⟨rfl, hroute, rfl, hidentity⟩ := requestIdLayout_inj heq
      obtain rfl := uint8_ofNat_inj (contractRouteId_bounds hid).2 (contractRouteId_bounds hid').2
        hroute
      rw [contractRouteId_inj hid hid', SourceIdentity.bytes_injective hidentity]
    | treasuryWithdraw domain' identity' =>
      exact absurd (requestIdLayout_inj hok').2.1 (routeByte_ne_zero hid)
  | treasuryWithdraw domain identity =>
    cases o' with
    | routed action' route' domain' identity' =>
      obtain ⟨id', hid', heq⟩ := hok'
      exact absurd (requestIdLayout_inj (hok.symm.trans heq)).2.1.symm (routeByte_ne_zero hid')
    | treasuryWithdraw domain' identity' =>
      obtain ⟨-, -, rfl, hidentity⟩ := requestIdLayout_inj (hok.symm.trans hok')
      rw [SourceIdentity.bytes_injective hidentity]

/-! ## The service and the contract -/

/-- Whatever the hash is: what the service hashes for a payload is what the
contract hashes in the call the payload is signed for, no two payloads are hashed
from the same bytes, and neither are the request ids of two operations. -/
theorem same_preimages (keccak : Keccak) :
    (∀ {Sig : Type} (recover : Evm.Word → Sig → Option Evm.Address) (I : Evm.Immutables)
      (s : Evm.Storage) (signatures : List Sig) (p : EvmAuthPayload) (bytes : List UInt8),
      p.preimage keccak = .ok bytes → p.Agrees I s →
      ∃ a words, (p.call signatures).authorization I s = some a ∧
        a.structHash (crypto keccak recover) I =
          (crypto keccak recover).keccak256 (.encode words) ∧
        preimageBytes (.encode words) = bytes) ∧
    (∀ (p q : EvmAuthPayload) (bytes : List UInt8), p.preimage keccak = .ok bytes →
      q.preimage keccak = .ok bytes → p = q) ∧
    ∀ (o o' : Operation) (bytes : List UInt8), o.requestIdPreimage = .ok bytes →
      o'.requestIdPreimage = .ok bytes → o = o' := by
  refine ⟨?_, fun _ _ _ => preimage_inj, fun _ _ _ => Operation.requestIdPreimage_inj⟩
  intro Sig recover I s signatures p bytes hp hagrees
  obtain ⟨ws, hws, rfl⟩ := map_eq_ok.mp hp
  obtain ⟨a, hcall, hwords⟩ : ∃ a, (p.call signatures).authorization I s = some a ∧
      ws = (structWords (crypto keccak recover) I a).map (beBytes 32) := words_eq hws hagrees
  exact ⟨a, _, hcall, structHash_eq _ I a, congrArg List.flatten hwords.symm⟩

/-- A payout of the sample deployment. -/
def samplePayout : PayoutAuth where
  route := .glcToRhn
  chains := ⟨10, 20⟩
  token := (Vector.replicate 19 0).push 2
  requestId := Vector.replicate 32 7
  recipient := Vector.replicate 20 9
  amount := ⟨5, by decide⟩
  signerEpoch := 1
  expiry := 5000

theorem same_preimages_sample :
    ∃ bytes a words,
      (EvmAuthPayload.payout samplePayout).preimage (fun _ => Vector.replicate 32 0) = .ok bytes ∧
      ((EvmAuthPayload.payout samplePayout).call ([] : List ℕ)).authorization
        Evm.sampleImmutables Evm.sampleWorld.bridge = some a ∧
      preimageBytes (.encode words) = bytes := by
  have hagrees : (EvmAuthPayload.payout samplePayout).Agrees Evm.sampleImmutables
      Evm.sampleWorld.bridge := by
    refine ⟨by decide, fun id hid => ?_⟩
    obtain rfl : 1 = id := Option.some.inj hid
    exact ⟨false, rfl⟩
  obtain ⟨a, words, hcall, -, hbytes⟩ := (same_preimages fun _ => Vector.replicate 32 0).1
    (fun _ _ => none) _ _ ([] : List ℕ) (.payout samplePayout) _ rfl hagrees
  exact ⟨_, a, words, rfl, hcall, hbytes⟩

end Service.Robinhood.Auth
