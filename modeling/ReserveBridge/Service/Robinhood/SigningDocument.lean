-- SUMMARY: Authorization requests with their digest, the document that carries one to a signer, and when two documents differ in spelling only.
import ReserveBridge.Service.Robinhood.EvmText
import ReserveBridge.Service.SolanaIndexer

/-!
# Signing documents

`EvmAuthRequest` of `service/src/robinhood/auth.rs` with the typed-data digest of
`service/src/evm/eip712.rs`, and the document of
`service/src/signing/evm_policy.rs` that a request is sent to a signer in. The
hash is any function.
-/

namespace Service.Robinhood
open Guard Bytes Auth

/-! ## The digest -/

/-- `Eip712Domain`. -/
structure Eip712Domain where
  name : Option String
  version : Option String
  chainId : Option UInt64
  verifyingContract : Option EvmAddress
  salt : Option Bytes32

/-- `type_string`. -/
def Eip712Domain.typeString (d : Eip712Domain) : String :=
  let fields := [d.name.map fun _ => "string name", d.version.map fun _ => "string version",
    d.chainId.map fun _ => "uint256 chainId",
    d.verifyingContract.map fun _ => "address verifyingContract",
    d.salt.map fun _ => "bytes32 salt"].reduceOption
  "EIP712Domain(" ++ ",".intercalate fields ++ ")"

def eip712Name : String := "GlcRobinhoodBridge"
def eip712Version : String := "1"

/-- `to_eip712`. -/
def toEip712 (domain : BridgeDomain) : Eip712Domain where
  name := some eip712Name
  version := some eip712Version
  chainId := some domain.chainId
  verifyingContract := some domain.verifyingContract
  salt := none

section Digest

variable (keccak : Keccak)

/-- The words that follow the type hash. -/
def Eip712Domain.words (d : Eip712Domain) : List (List UInt8) :=
  [d.name.map fun name => (keccak (textBytes name)).toList,
    d.version.map fun version => (keccak (textBytes version)).toList,
    d.chainId.map fun chainId => encodeUint128 chainId.toNat,
    d.verifyingContract.map encodeAddress, d.salt.map Vector.toList].reduceOption

def Eip712Domain.separator (d : Eip712Domain) : Bytes32 :=
  keccak ((keccak (textBytes d.typeString)).toList ++ (d.words keccak).flatten)

def typedDataHash (domainSeparator structHash : Bytes32) : Bytes32 :=
  keccak ([0x19, 0x01] ++ (domainSeparator.toList ++ structHash.toList))

/-- `BridgeDomain::digest`. -/
def domainDigest (domain : BridgeDomain) (structHash : Bytes32) : Bytes32 :=
  typedDataHash keccak ((toEip712 domain).separator keccak) structHash

end Digest

/-! ## Requests -/

deriving instance DecidableEq for BridgeDomain

structure EvmAuthRequest where
  domain : BridgeDomain
  payload : EvmAuthPayload
  deriving DecidableEq

namespace EvmAuthRequest

def action (r : EvmAuthRequest) : UInt8 :=
  match r.payload with
  | .payout _ => actionPayout
  | .refund _ => actionRefund
  | .settlement _ => actionSettle
  | .treasuryWithdraw _ => actionTreasuryWithdraw

def kindStr (r : EvmAuthRequest) : String :=
  match r.payload with
  | .payout _ => "payout"
  | .refund _ => "refund"
  | .settlement _ => "settlement"
  | .treasuryWithdraw _ => "treasury_withdraw"

def route (r : EvmAuthRequest) : Option Direction := r.payload.route

def chains (r : EvmAuthRequest) : Option ProtocolChainPair :=
  match r.payload with
  | .payout a => some a.chains
  | .refund a => some a.chains
  | .settlement a => some a.chains
  | .treasuryWithdraw _ => none

def treasury (r : EvmAuthRequest) : Option EvmAddress :=
  match r.payload with
  | .treasuryWithdraw a => some a.treasury
  | _ => none

def token (r : EvmAuthRequest) : Option EvmAddress :=
  match r.payload with
  | .payout a => some a.token
  | .refund a => some a.token
  | .settlement _ => none
  | .treasuryWithdraw a => some a.token

def contractRequestId (r : EvmAuthRequest) : Bytes32 :=
  match r.payload with
  | .payout a => a.requestId
  | .refund a => a.requestId
  | .settlement a => a.requestId
  | .treasuryWithdraw a => a.requestId

def obligationIndex (r : EvmAuthRequest) : Option UInt64 :=
  match r.payload with
  | .payout _ => none
  | .refund a => some a.obligationIndex
  | .settlement a => some a.obligationIndex
  | .treasuryWithdraw _ => none

def recipient (r : EvmAuthRequest) : Option EvmAddress :=
  match r.payload with
  | .payout a => some a.recipient
  | .refund a => some a.recipient
  | .settlement _ => none
  | .treasuryWithdraw a => some a.treasury

def amount (r : EvmAuthRequest) : Option RobinhoodAtomic :=
  match r.payload with
  | .payout a => some a.amount
  | .refund a => some a.amount
  | .settlement _ => none
  | .treasuryWithdraw a => some a.amount

def signerEpoch (r : EvmAuthRequest) : UInt64 :=
  match r.payload with
  | .payout a => a.signerEpoch
  | .refund a => a.signerEpoch
  | .settlement a => a.signerEpoch
  | .treasuryWithdraw a => a.signerEpoch

def expiry (r : EvmAuthRequest) : UInt64 :=
  match r.payload with
  | .payout a => a.expiry
  | .refund a => a.expiry
  | .settlement a => a.expiry
  | .treasuryWithdraw a => a.expiry

section

variable (keccak : Keccak)

/-- The 32 bytes a signer signs. -/
def digest (r : EvmAuthRequest) : Except AuthError Bytes32 := do
  let structHash ← r.payload.structHash keccak
  return domainDigest keccak r.domain structHash

def summary (r : EvmAuthRequest) : String :=
  let contract := toChecksumString keccak r.domain.verifyingContract
  match r.payload with
  | .payout a =>
    s!"PAYOUT {amountToString a.amount} to {toChecksumString keccak a.recipient} on route {a.route.text} (contract {contract})"
  | .refund a =>
    s!"REFUND of obligation {a.obligationIndex} — {amountToString a.amount} to its depositor {toChecksumString keccak a.recipient} on route {a.route.text} (contract {contract})"
  | .settlement a =>
    s!"SETTLE obligation {a.obligationIndex} on route {a.route.text} — moves no tokens (contract {contract})"
  | .treasuryWithdraw a =>
    s!"RESERVE WITHDRAWAL {amountToString a.amount} to treasury {toChecksumString keccak a.treasury} (contract {contract})"

end

/-- The recipient a document spells. The destination of a withdrawal is its treasury. -/
def documentRecipient (r : EvmAuthRequest) : Option EvmAddress :=
  match r.payload with
  | .treasuryWithdraw _ => none
  | _ => r.recipient

end EvmAuthRequest

/-! ## Documents -/

/-- `Route::from_str`. Its error is never read. -/
def routeFromStr (s : String) : Option Direction :=
  match s with
  | "GlcToSol" => some .glcToSol
  | "SolToGlc" => some .solToGlc
  | "GlcToRhn" => some .glcToRhn
  | "RhnToGlc" => some .rhnToGlc
  | "SolToRhn" => some .solToRhn
  | "RhnToSol" => some .rhnToSol
  | _ => none

/-- A route has one spelling. -/
theorem routeFromStr_eq_some {s : String} {route : Direction} :
    routeFromStr s = some route ↔ s = route.text := by
  constructor
  · intro h
    unfold routeFromStr at h
    split at h
    case h_7 => cases h
    all_goals
      cases h
      rfl
  · rintro rfl
    cases route <;> rfl

def evmAuthProtocolVersion : UInt32 := 2

/-- `EvmAuthSignRequest`. -/
structure EvmAuthSignRequest where
  protocolVersion : UInt32
  kind : String
  action : UInt8
  route : Option String
  chainId : UInt64
  verifyingContract : String
  protocolSourceChainId : Option UInt64
  protocolDestChainId : Option UInt64
  treasury : Option String
  token : Option String
  requestId : String
  obligationIndex : Option UInt64
  recipient : Option String
  amountRobinhoodAtomic : Option String
  signerEpoch : UInt64
  expiry : UInt64
  expectedDigest : String
  deriving DecidableEq

namespace EvmAuthSignRequest

section

variable (keccak : Keccak)

/-- The document of a request and its digest. -/
def ofRequest (request : EvmAuthRequest) (digest : Bytes32) : EvmAuthSignRequest where
  protocolVersion := evmAuthProtocolVersion
  kind := request.kindStr
  action := request.action
  route := request.route.map Direction.text
  chainId := request.domain.chainId
  verifyingContract := toChecksumString keccak request.domain.verifyingContract
  protocolSourceChainId := request.chains.map ProtocolChainPair.source
  protocolDestChainId := request.chains.map ProtocolChainPair.dest
  treasury := request.treasury.map (toChecksumString keccak)
  token := request.token.map (toChecksumString keccak)
  requestId := encodeLower request.contractRequestId.toList
  obligationIndex := request.obligationIndex
  recipient := request.documentRecipient.map (toChecksumString keccak)
  amountRobinhoodAtomic := request.amount.map amountToString
  signerEpoch := request.signerEpoch
  expiry := request.expiry
  expectedDigest := encodeLower digest.toList

def fromRequest (request : EvmAuthRequest) : Except AuthError EvmAuthSignRequest := do
  let digest ← request.digest keccak
  return ofRequest keccak request digest

/-- Two documents with the same fields present and the same values, whose hex and
decimal texts may be spelled in different ways. -/
structure SameUpToSpelling (document document' : EvmAuthSignRequest) : Prop where
  protocolVersion : document.protocolVersion = document'.protocolVersion
  kind : document.kind = document'.kind
  action : document.action = document'.action
  route : document.route = document'.route
  chainId : document.chainId = document'.chainId
  verifyingContract :
    (addressText keccak).Same document.verifyingContract document'.verifyingContract
  protocolSourceChainId : document.protocolSourceChainId = document'.protocolSourceChainId
  protocolDestChainId : document.protocolDestChainId = document'.protocolDestChainId
  treasury : (addressText keccak).SameOption document.treasury document'.treasury
  token : (addressText keccak).SameOption document.token document'.token
  requestId : (hexText 32).Same document.requestId document'.requestId
  obligationIndex : document.obligationIndex = document'.obligationIndex
  recipient : (addressText keccak).SameOption document.recipient document'.recipient
  amountRobinhoodAtomic :
    amountText.SameOption document.amountRobinhoodAtomic document'.amountRobinhoodAtomic
  signerEpoch : document.signerEpoch = document'.signerEpoch
  expiry : document.expiry = document'.expiry
  expectedDigest : (hexText 32).Same document.expectedDigest document'.expectedDigest

/-- Every field of the document is read as the value the request has there. -/
structure Spells (document : EvmAuthSignRequest) (request : EvmAuthRequest) (digest : Bytes32) :
    Prop where
  protocolVersion : document.protocolVersion = evmAuthProtocolVersion
  kind : document.kind = request.kindStr
  action : document.action = request.action
  route : document.route = request.route.map Direction.text
  chainId : document.chainId = request.domain.chainId
  verifyingContract :
    addressFromStr keccak document.verifyingContract = .ok request.domain.verifyingContract
  protocolSourceChainId :
    document.protocolSourceChainId = request.chains.map ProtocolChainPair.source
  protocolDestChainId : document.protocolDestChainId = request.chains.map ProtocolChainPair.dest
  treasury : (addressText keccak).Reads document.treasury request.treasury
  token : (addressText keccak).Reads document.token request.token
  requestId : decodeFixed 32 document.requestId = .ok request.contractRequestId
  obligationIndex : document.obligationIndex = request.obligationIndex
  recipient : (addressText keccak).Reads document.recipient request.documentRecipient
  amountRobinhoodAtomic : amountText.Reads document.amountRobinhoodAtomic request.amount
  signerEpoch : document.signerEpoch = request.signerEpoch
  expiry : document.expiry = request.expiry
  expectedDigest : decodeFixed 32 document.expectedDigest = .ok digest

end

variable {keccak : Keccak} {document : EvmAuthSignRequest} {request : EvmAuthRequest}
  {digest : Bytes32}

/-- The document of a request spells it. -/
theorem spells_ofRequest : (ofRequest keccak request digest).Spells keccak request digest where
  protocolVersion := rfl
  kind := rfl
  action := rfl
  route := rfl
  chainId := rfl
  verifyingContract := addressFromStr_toChecksumString keccak _
  protocolSourceChainId := rfl
  protocolDestChainId := rfl
  treasury := Spelling.reads_map_write
  token := Spelling.reads_map_write
  requestId := (hexText 32).read_write _
  obligationIndex := rfl
  recipient := Spelling.reads_map_write
  amountRobinhoodAtomic := Spelling.reads_map_write
  signerEpoch := rfl
  expiry := rfl
  expectedDigest := (hexText 32).read_write _

/-- A document that spells a request is its document, up to spelling. -/
theorem Spells.sameUpToSpelling (h : document.Spells keccak request digest) :
    document.SameUpToSpelling keccak (ofRequest keccak request digest) where
  protocolVersion := h.protocolVersion
  kind := h.kind
  action := h.action
  route := h.route
  chainId := h.chainId
  verifyingContract := Spelling.same_write.mpr h.verifyingContract
  protocolSourceChainId := h.protocolSourceChainId
  protocolDestChainId := h.protocolDestChainId
  treasury := Spelling.sameOption_map_write.mpr h.treasury
  token := Spelling.sameOption_map_write.mpr h.token
  requestId := Spelling.same_write.mpr h.requestId
  obligationIndex := h.obligationIndex
  recipient := Spelling.sameOption_map_write.mpr h.recipient
  amountRobinhoodAtomic := Spelling.sameOption_map_write.mpr h.amountRobinhoodAtomic
  signerEpoch := h.signerEpoch
  expiry := h.expiry
  expectedDigest := Spelling.same_write.mpr h.expectedDigest

theorem fromRequest_eq_ok : fromRequest keccak request = .ok document ↔
    ∃ digest, request.digest keccak = .ok digest ∧ ofRequest keccak request digest = document := by
  simp only [fromRequest, bind_eq_ok, pure_eq_ok]

end EvmAuthSignRequest

end Service.Robinhood
