-- SUMMARY: The policy of a signer on Robinhood, and that it returns the request a document was made from, accepts nothing else, and leaves no field of a document unread.
import ReserveBridge.Service.Robinhood.SigningDocument

/-!
# The policy of a signer

`EvmSignerPolicy::evaluate` of `service/src/signing/evm_policy.rs`, phase by phase.
-/

namespace Service.Robinhood
open Guard Bytes Auth

/-! ## The policy -/

/-- What is wrong with a field. -/
inductive MalformedDetail
  | address (error : EvmAddressError)
  | hex (error : EvmHexError)
  | notDecimal (raw : String)
  | zeroWithdrawal
  deriving DecidableEq

/-- `EvmPolicyError`. -/
inductive EvmPolicyError
  | unknownProtocolVersion (expected actual : UInt32)
  | unknownAction (action : UInt8)
  | kindActionMismatch (kind : String) (action : UInt8)
  | unknownRoute (route : String)
  | malformedField (field : String) (detail : MalformedDetail)
  | missingField (field kind : String)
  | unexpectedField (field kind : String)
  | wrongVerifyingContract (expected actual : String)
  | wrongChainId (expected actual : UInt64)
  | wrongToken (expected actual : String)
  | wrongProtocolChains (route : String)
      (expectedSource expectedDest actualSource actualDest : UInt64)
  | actionNotPermitted (requested : UInt8) (allowed : List UInt8)
  | treasuryNotAllowlisted (treasury : String)
  | routeNotPermitted (requested : String) (allowed : List String)
  | amountAboveCeiling (amount ceiling : RobinhoodAtomic)
  | alreadyExpired (expiry now : UInt64)
  | ttlAboveCeiling (ttlSecs maxTtlSecs : UInt64)
  | wrongSignerEpoch (expected actual : UInt64)
  | notEncodable (error : AuthError)
  | digestMismatch (requested computed : String)
  /-- The `expect` of a route-bound action fails: the call does not return. -/
  | unbound
  deriving DecidableEq

structure EvmAuthDecision where
  request : EvmAuthRequest
  digest : Bytes32
  summary : String
  deriving DecidableEq

/-- `EvmSignerPolicy`. A chain id is not zero. -/
structure EvmSignerPolicy where
  chainId : UInt64
  chainId_ne : chainId ≠ 0
  verifyingContract : EvmAddress
  token : EvmAddress
  allowedActions : List UInt8
  allowedRoutes : List Direction
  routeChains : List (Direction × ProtocolChainPair)
  allowedTreasuries : List EvmAddress
  maxAmountRobinhoodAtomic : RobinhoodAtomic
  maxAuthorizationTtlSecs : UInt64
  expectedSignerEpoch : Option UInt64

/-! ## Fields -/

/-- `require` and `require_value`. -/
def requireValue {α : Type} (field kind : String) (value : Option α) : Except EvmPolicyError α :=
  orFail value (.missingField field kind)

def rejectPresent {α : Type} (field kind : String) (value : Option α) : Except EvmPolicyError Unit :=
  require (value = none) (.unexpectedField field kind)

def parseBytes32 (field value : String) : Except EvmPolicyError Bytes32 :=
  (decodeFixed 32 value).mapError fun e => .malformedField field (.hex e)

/-- The amount field before any bound. -/
def parseAmount (document : EvmAuthSignRequest) (kind : String) :
    Except EvmPolicyError RobinhoodAtomic := do
  let raw ← requireValue "amount_robinhood_atomic" kind document.amountRobinhoodAtomic
  (parseU128 raw).mapError fun _ => .malformedField "amount_robinhood_atomic" (.notDecimal raw)

def parseAmountUnbounded (document : EvmAuthSignRequest) (kind : String) :
    Except EvmPolicyError RobinhoodAtomic := do
  let value ← parseAmount document kind
  require (value ≠ 0) (.malformedField "amount_robinhood_atomic" .zeroWithdrawal)
  return value

/-- The kind an action byte stands for. -/
def expectedKind (action : UInt8) : Except EvmPolicyError String :=
  if action = actionPayout then .ok "payout"
  else if action = actionRefund then .ok "refund"
  else if action = actionSettle then .ok "settlement"
  else if action = actionTreasuryWithdraw then .ok "treasury_withdraw"
  else .error (.unknownAction action)

/-- The route of a document. A withdrawal binds no route, everything else binds one
and no treasury. -/
def shapeRoute (document : EvmAuthSignRequest) (kind : String) :
    Except EvmPolicyError (Option Direction) :=
  if document.action = actionTreasuryWithdraw then do
    rejectPresent "route" kind document.route
    rejectPresent "protocol_source_chain_id" kind document.protocolSourceChainId
    rejectPresent "protocol_dest_chain_id" kind document.protocolDestChainId
    return none
  else do
    rejectPresent "treasury" kind document.treasury
    let raw ← requireValue "route" kind document.route
    let route ← orFail (routeFromStr raw) (.unknownRoute raw)
    return some route

namespace EvmSignerPolicy

variable (policy : EvmSignerPolicy)

/-- `BridgeDomain::new`, of the policy's own chain and contract. -/
def domain : BridgeDomain where
  chainId := policy.chainId
  verifyingContract := policy.verifyingContract
  chainId_ne := policy.chainId_ne

/-- The pair the policy holds for a route: the first in its list. -/
def heldChains (route : Direction) : Option ProtocolChainPair :=
  (policy.routeChains.find? fun held => held.1 = route).map Prod.snd

/-- The pair of a document, compared with the one that is held for its route. -/
def boundChains (document : EvmAuthSignRequest) (kind : String) (route : Direction) :
    Except EvmPolicyError (Direction × ProtocolChainPair) := do
  require (route ∈ policy.allowedRoutes)
    (.routeNotPermitted route.text (policy.allowedRoutes.map Direction.text))
  let expected ← orFail (policy.heldChains route)
    (.routeNotPermitted route.text (policy.routeChains.map fun held => held.1.text))
  let source ← requireValue "protocol_source_chain_id" kind document.protocolSourceChainId
  let dest ← requireValue "protocol_dest_chain_id" kind document.protocolDestChainId
  require (expected.source = source ∧ expected.dest = dest)
    (.wrongProtocolChains route.text expected.source expected.dest source dest)
  return (route, ⟨source, dest⟩)

def routeAndChains (document : EvmAuthSignRequest) (kind : String) :
    Option Direction → Except EvmPolicyError (Option (Direction × ProtocolChainPair))
  | none => .ok none
  | some route => some <$> policy.boundChains document kind route

/-- Times are whole seconds, and `expiry - now` is taken after `now < expiry`. -/
def checkLifetime (document : EvmAuthSignRequest) (now : UInt64) : Except EvmPolicyError Unit := do
  require (now < document.expiry) (.alreadyExpired document.expiry now)
  require (document.expiry - now ≤ policy.maxAuthorizationTtlSecs)
    (.ttlAboveCeiling (document.expiry - now) policy.maxAuthorizationTtlSecs)
  match policy.expectedSignerEpoch with
  | none => .ok ()
  | some expected =>
    require (document.signerEpoch = expected) (.wrongSignerEpoch expected document.signerEpoch)

def requireAmount (document : EvmAuthSignRequest) (kind : String) :
    Except EvmPolicyError RobinhoodAtomic := do
  let value ← parseAmount document kind
  require (value ≤ policy.maxAmountRobinhoodAtomic)
    (.amountAboveCeiling value policy.maxAmountRobinhoodAtomic)
  return value

section Evaluate

variable (keccak : Keccak)

def parseAddress (field value : String) : Except EvmPolicyError EvmAddress :=
  (addressFromStr keccak value).mapError fun e => .malformedField field (.address e)

/-- An address field that has to be there. -/
def requireAddress (field kind : String) (value : Option String) :
    Except EvmPolicyError EvmAddress := do
  let raw ← requireValue field kind value
  parseAddress keccak field raw

def checkDeployment (document : EvmAuthSignRequest) : Except EvmPolicyError Unit := do
  let verifyingContract ← parseAddress keccak "verifying_contract" document.verifyingContract
  require (verifyingContract = policy.verifyingContract)
    (.wrongVerifyingContract (toChecksumString keccak policy.verifyingContract)
      (toChecksumString keccak verifyingContract))
  require (document.chainId = policy.chainId) (.wrongChainId policy.chainId document.chainId)

def requireToken (document : EvmAuthSignRequest) (kind : String) :
    Except EvmPolicyError EvmAddress := do
  let token ← requireAddress keccak "token" kind document.token
  require (token = policy.token)
    (.wrongToken (toChecksumString keccak policy.token) (toChecksumString keccak token))
  return token

/-! ## The four payloads -/

def payout (document : EvmAuthSignRequest) (kind : String) (requestId : Bytes32)
    (route : Direction) (chains : ProtocolChainPair) : Except EvmPolicyError Auth.PayoutAuth := do
  rejectPresent "obligation_index" kind document.obligationIndex
  let token ← policy.requireToken keccak document kind
  let recipient ← requireAddress keccak "recipient" kind document.recipient
  let amount ← policy.requireAmount document kind
  return ⟨route, chains, token, requestId, recipient, amount, document.signerEpoch, document.expiry⟩

def refund (document : EvmAuthSignRequest) (kind : String) (requestId : Bytes32)
    (route : Direction) (chains : ProtocolChainPair) : Except EvmPolicyError Auth.RefundAuth := do
  let token ← policy.requireToken keccak document kind
  let obligationIndex ← requireValue "obligation_index" kind document.obligationIndex
  let recipient ← requireAddress keccak "recipient" kind document.recipient
  let amount ← policy.requireAmount document kind
  return ⟨route, chains, token, requestId, obligationIndex, recipient, amount,
    document.signerEpoch, document.expiry⟩

/-- A settlement moves no tokens and names no recipient. -/
def settlement (document : EvmAuthSignRequest) (kind : String) (requestId : Bytes32)
    (route : Direction) (chains : ProtocolChainPair) : Except EvmPolicyError Auth.SettlementAuth := do
  rejectPresent "token" kind document.token
  rejectPresent "recipient" kind document.recipient
  rejectPresent "amount_robinhood_atomic" kind document.amountRobinhoodAtomic
  let obligationIndex ← requireValue "obligation_index" kind document.obligationIndex
  return ⟨route, chains, requestId, obligationIndex, document.signerEpoch, document.expiry⟩

/-- The destination of a withdrawal is its treasury, and its amount has no ceiling. -/
def treasuryWithdraw (document : EvmAuthSignRequest) (kind : String) (requestId : Bytes32) :
    Except EvmPolicyError Auth.TreasuryWithdrawAuth := do
  rejectPresent "obligation_index" kind document.obligationIndex
  rejectPresent "recipient" kind document.recipient
  let token ← policy.requireToken keccak document kind
  let treasury ← requireAddress keccak "treasury" kind document.treasury
  require (treasury ∈ policy.allowedTreasuries)
    (.treasuryNotAllowlisted (toChecksumString keccak treasury))
  let amount ← parseAmountUnbounded document kind
  return ⟨token, requestId, treasury, amount, document.signerEpoch, document.expiry⟩

/-- The authorization of a document. A route-bound action unwraps its route. -/
def payload (document : EvmAuthSignRequest) (kind : String) (requestId : Bytes32)
    (bound : Option (Direction × ProtocolChainPair)) : Except EvmPolicyError EvmAuthPayload :=
  if document.action = actionPayout then do
    let (route, chains) ← orFail bound .unbound
    EvmAuthPayload.payout <$> policy.payout keccak document kind requestId route chains
  else if document.action = actionRefund then do
    let (route, chains) ← orFail bound .unbound
    EvmAuthPayload.refund <$> policy.refund keccak document kind requestId route chains
  else if document.action = actionSettle then do
    let (route, chains) ← orFail bound .unbound
    EvmAuthPayload.settlement <$> settlement document kind requestId route chains
  else if document.action = actionTreasuryWithdraw then
    EvmAuthPayload.treasuryWithdraw <$> policy.treasuryWithdraw keccak document kind requestId
  else .error (.unknownAction document.action)

/-! ## The decision -/

def evaluate (document : EvmAuthSignRequest) (now : UInt64) :
    Except EvmPolicyError EvmAuthDecision := do
  require (document.protocolVersion = evmAuthProtocolVersion)
    (.unknownProtocolVersion evmAuthProtocolVersion document.protocolVersion)
  let kind ← expectedKind document.action
  require (document.kind = kind) (.kindActionMismatch document.kind document.action)
  let route ← shapeRoute document kind
  policy.checkDeployment keccak document
  require (document.action ∈ policy.allowedActions)
    (.actionNotPermitted document.action policy.allowedActions)
  let bound ← policy.routeAndChains document kind route
  policy.checkLifetime document now
  let requestId ← parseBytes32 "request_id" document.requestId
  let payload ← policy.payload keccak document kind requestId bound
  let request : EvmAuthRequest := ⟨policy.domain, payload⟩
  let digest ← (request.digest keccak).mapError .notEncodable
  let requestedDigest ← parseBytes32 "expected_digest" document.expectedDigest
  require (requestedDigest = digest)
    (.digestMismatch (encodeLower requestedDigest.toList) (encodeLower digest.toList))
  return ⟨request, digest, request.summary keccak⟩

end Evaluate

/-! ## What a policy admits -/

/-- The request is within every bound of the policy. -/
structure Admits (now : UInt64) (request : EvmAuthRequest) : Prop where
  chain : request.domain.chainId = policy.chainId
  contract : request.domain.verifyingContract = policy.verifyingContract
  token : ∀ token ∈ request.token, token = policy.token
  action : request.action ∈ policy.allowedActions
  route : ∀ route ∈ request.route, route ∈ policy.allowedRoutes ∧
    policy.heldChains route = request.chains
  /-- The ceiling of a transfer to a user. -/
  ceiling : request.action = actionPayout ∨ request.action = actionRefund →
    ∀ amount ∈ request.amount, amount ≤ policy.maxAmountRobinhoodAtomic
  treasury : ∀ treasury ∈ request.treasury, treasury ∈ policy.allowedTreasuries
  alive : now < request.expiry
  lifetime : request.expiry.toNat ≤ now.toNat + policy.maxAuthorizationTtlSecs.toNat
  epoch : ∀ epoch ∈ policy.expectedSignerEpoch, request.signerEpoch = epoch

end EvmSignerPolicy

/-! ## What each phase reads -/

@[simp] theorem rejectPresent_eq_ok {α : Type} {field kind : String} {value : Option α} {u : Unit} :
    rejectPresent field kind value = .ok u ↔ value = none :=
  require_eq_ok

@[simp] theorem requireValue_eq_ok {α : Type} {field kind : String} {value : Option α} {a : α} :
    requireValue field kind value = .ok a ↔ value = some a :=
  orFail_eq_ok

@[simp] theorem parseBytes32_eq_ok {field value : String} {bytes : Bytes32} :
    parseBytes32 field value = .ok bytes ↔ decodeFixed 32 value = .ok bytes :=
  mapError_eq_ok

theorem parseAmount_eq_ok {document : EvmAuthSignRequest} {kind : String}
    {amount : RobinhoodAtomic} : parseAmount document kind = .ok amount ↔
      amountText.Reads document.amountRobinhoodAtomic (some amount) := by
  simp only [parseAmount, bind_eq_ok, requireValue_eq_ok, mapError_eq_ok, Spelling.reads_some]
  rfl

@[simp] theorem expectedKind_action (request : EvmAuthRequest) :
    expectedKind request.action = .ok request.kindStr := by
  cases hpayload : request.payload <;> simp [EvmAuthRequest.action, EvmAuthRequest.kindStr, hpayload] <;> rfl

namespace EvmSignerPolicy

variable {policy : EvmSignerPolicy} {keccak : Keccak} {document : EvmAuthSignRequest}
  {kind : String} {requestId : Bytes32} {route : Direction} {chains : ProtocolChainPair}
  {now : UInt64}

theorem requireAddress_eq_ok {field : String} {value : Option String} {address : EvmAddress} :
    requireAddress keccak field kind value = .ok address ↔
      (addressText keccak).Reads value (some address) := by
  simp only [requireAddress, bind_eq_ok, requireValue_eq_ok, parseAddress, mapError_eq_ok,
    Spelling.reads_some]
  rfl

theorem requireToken_eq_ok {token : EvmAddress} :
    policy.requireToken keccak document kind = .ok token ↔
      (addressText keccak).Reads document.token (some token) ∧ token = policy.token := by
  simp only [requireToken, bind_eq_ok, requireAddress_eq_ok, require_eq_ok, exists_unit,
    pure_eq_ok]
  constructor
  · rintro ⟨token', hread, htoken, rfl⟩
    exact ⟨hread, htoken⟩
  · rintro ⟨hread, htoken⟩
    exact ⟨token, hread, htoken, rfl⟩

theorem requireAmount_eq_ok {amount : RobinhoodAtomic} :
    policy.requireAmount document kind = .ok amount ↔
      amountText.Reads document.amountRobinhoodAtomic (some amount) ∧
        amount ≤ policy.maxAmountRobinhoodAtomic := by
  simp only [requireAmount, bind_eq_ok, parseAmount_eq_ok, require_eq_ok, exists_unit, pure_eq_ok]
  constructor
  · rintro ⟨amount', hread, hle, rfl⟩
    exact ⟨hread, hle⟩
  · rintro ⟨hread, hle⟩
    exact ⟨amount, hread, hle, rfl⟩

theorem parseAmountUnbounded_eq_ok {amount : RobinhoodAtomic} :
    parseAmountUnbounded document kind = .ok amount ↔
      amountText.Reads document.amountRobinhoodAtomic (some amount) ∧ amount ≠ 0 := by
  simp only [parseAmountUnbounded, bind_eq_ok, parseAmount_eq_ok, require_eq_ok, exists_unit,
    pure_eq_ok]
  constructor
  · rintro ⟨amount', hread, hne, rfl⟩
    exact ⟨hread, hne⟩
  · rintro ⟨hread, hne⟩
    exact ⟨amount, hread, hne, rfl⟩

theorem checkDeployment_eq_ok {u : Unit} : policy.checkDeployment keccak document = .ok u ↔
    addressFromStr keccak document.verifyingContract = .ok policy.verifyingContract ∧
      document.chainId = policy.chainId := by
  simp only [checkDeployment, parseAddress, bind_eq_ok, mapError_eq_ok, require_eq_ok, exists_unit]
  constructor
  · rintro ⟨contract, hread, rfl, hchain⟩
    exact ⟨hread, hchain⟩
  · rintro ⟨hread, hchain⟩
    exact ⟨policy.verifyingContract, hread, rfl, hchain⟩

theorem boundChains_eq_ok {bound : Direction × ProtocolChainPair} :
    policy.boundChains document kind route = .ok bound ↔ bound.1 = route ∧
      route ∈ policy.allowedRoutes ∧ policy.heldChains route = some bound.2 ∧
      document.protocolSourceChainId = some bound.2.source ∧
      document.protocolDestChainId = some bound.2.dest := by
  simp only [boundChains, bind_eq_ok, require_eq_ok, exists_unit, orFail_eq_ok,
    requireValue_eq_ok, pure_eq_ok]
  constructor
  · rintro ⟨hallowed, expected, hheld, source, hsource, dest, hdest, ⟨rfl, rfl⟩, rfl⟩
    exact ⟨rfl, hallowed, hheld, hsource, hdest⟩
  · rintro ⟨rfl, hallowed, hheld, hsource, hdest⟩
    exact ⟨hallowed, bound.2, hheld, _, hsource, _, hdest, ⟨rfl, rfl⟩, rfl⟩

/-- The difference is taken after the comparison, so it is the difference of the numbers. -/
theorem checkLifetime_eq_ok {u : Unit} : policy.checkLifetime document now = .ok u ↔
    now < document.expiry ∧
      document.expiry.toNat ≤ now.toNat + policy.maxAuthorizationTtlSecs.toNat ∧
      ∀ epoch ∈ policy.expectedSignerEpoch, document.signerEpoch = epoch := by
  have hepoch : (match policy.expectedSignerEpoch with
      | none => Except.ok ()
      | some expected => require (document.signerEpoch = expected)
        (EvmPolicyError.wrongSignerEpoch expected document.signerEpoch)) = .ok u ↔
      ∀ epoch ∈ policy.expectedSignerEpoch, document.signerEpoch = epoch := by
    cases policy.expectedSignerEpoch with
    | none => simp
    | some expected => simp
  simp only [checkLifetime, bind_eq_ok, require_eq_ok, exists_unit, hepoch]
  refine and_congr_right fun halive => and_congr_left fun _ => ?_
  have hlt : now.toNat < document.expiry.toNat := UInt64.lt_iff_toNat_lt.mp halive
  rw [UInt64.le_iff_toNat_le, UInt64.toNat_sub_of_le _ _ (UInt64.le_of_lt halive)]
  omega

/-! ## What each payload reads -/

theorem payout_eq_ok {a : Auth.PayoutAuth} :
    policy.payout keccak document kind requestId route chains = .ok a ↔
      document.obligationIndex = none ∧
      ((addressText keccak).Reads document.token (some a.token) ∧ a.token = policy.token) ∧
      (addressText keccak).Reads document.recipient (some a.recipient) ∧
      (amountText.Reads document.amountRobinhoodAtomic (some a.amount) ∧
        a.amount ≤ policy.maxAmountRobinhoodAtomic) ∧
      a.route = route ∧ a.chains = chains ∧ a.requestId = requestId ∧
      a.signerEpoch = document.signerEpoch ∧ a.expiry = document.expiry := by
  simp only [payout, bind_eq_ok, rejectPresent_eq_ok, exists_unit, requireToken_eq_ok,
    requireAddress_eq_ok, requireAmount_eq_ok, pure_eq_ok]
  constructor
  · rintro ⟨hindex, token, htoken, recipient, hrecipient, amount, hamount, rfl⟩
    exact ⟨hindex, htoken, hrecipient, hamount, rfl, rfl, rfl, rfl, rfl⟩
  · rintro ⟨hindex, htoken, hrecipient, hamount, rfl, rfl, rfl, hepoch, hexpiry⟩
    refine ⟨hindex, _, htoken, _, hrecipient, _, hamount, ?_⟩
    rw [← hepoch, ← hexpiry]

theorem refund_eq_ok {a : Auth.RefundAuth} :
    policy.refund keccak document kind requestId route chains = .ok a ↔
      ((addressText keccak).Reads document.token (some a.token) ∧ a.token = policy.token) ∧
      document.obligationIndex = some a.obligationIndex ∧
      (addressText keccak).Reads document.recipient (some a.recipient) ∧
      (amountText.Reads document.amountRobinhoodAtomic (some a.amount) ∧
        a.amount ≤ policy.maxAmountRobinhoodAtomic) ∧
      a.route = route ∧ a.chains = chains ∧ a.requestId = requestId ∧
      a.signerEpoch = document.signerEpoch ∧ a.expiry = document.expiry := by
  simp only [refund, bind_eq_ok, requireValue_eq_ok, requireToken_eq_ok, requireAddress_eq_ok,
    requireAmount_eq_ok, pure_eq_ok]
  constructor
  · rintro ⟨token, htoken, index, hindex, recipient, hrecipient, amount, hamount, rfl⟩
    exact ⟨htoken, hindex, hrecipient, hamount, rfl, rfl, rfl, rfl, rfl⟩
  · rintro ⟨htoken, hindex, hrecipient, hamount, rfl, rfl, rfl, hepoch, hexpiry⟩
    refine ⟨_, htoken, _, hindex, _, hrecipient, _, hamount, ?_⟩
    rw [← hepoch, ← hexpiry]

theorem settlement_eq_ok {a : Auth.SettlementAuth} :
    settlement document kind requestId route chains = .ok a ↔
      document.token = none ∧ document.recipient = none ∧
      document.amountRobinhoodAtomic = none ∧
      document.obligationIndex = some a.obligationIndex ∧
      a.route = route ∧ a.chains = chains ∧ a.requestId = requestId ∧
      a.signerEpoch = document.signerEpoch ∧ a.expiry = document.expiry := by
  simp only [settlement, bind_eq_ok, rejectPresent_eq_ok, requireValue_eq_ok, exists_unit,
    pure_eq_ok]
  constructor
  · rintro ⟨htoken, hrecipient, hamount, index, hindex, rfl⟩
    exact ⟨htoken, hrecipient, hamount, hindex, rfl, rfl, rfl, rfl, rfl⟩
  · rintro ⟨htoken, hrecipient, hamount, hindex, rfl, rfl, rfl, hepoch, hexpiry⟩
    refine ⟨htoken, hrecipient, hamount, _, hindex, ?_⟩
    rw [← hepoch, ← hexpiry]

theorem treasuryWithdraw_eq_ok {a : Auth.TreasuryWithdrawAuth} :
    policy.treasuryWithdraw keccak document kind requestId = .ok a ↔
      document.obligationIndex = none ∧ document.recipient = none ∧
      ((addressText keccak).Reads document.token (some a.token) ∧ a.token = policy.token) ∧
      (addressText keccak).Reads document.treasury (some a.treasury) ∧
      a.treasury ∈ policy.allowedTreasuries ∧
      (amountText.Reads document.amountRobinhoodAtomic (some a.amount) ∧ a.amount ≠ 0) ∧
      a.requestId = requestId ∧ a.signerEpoch = document.signerEpoch ∧
      a.expiry = document.expiry := by
  simp only [treasuryWithdraw, bind_eq_ok, rejectPresent_eq_ok, exists_unit, requireToken_eq_ok,
    requireAddress_eq_ok, parseAmountUnbounded_eq_ok, require_eq_ok, pure_eq_ok]
  constructor
  · rintro ⟨hindex, hrecipient, token, htoken, treasury, htreasury, hallowed, amount, hamount, rfl⟩
    exact ⟨hindex, hrecipient, htoken, htreasury, hallowed, hamount, rfl, rfl, rfl⟩
  · rintro ⟨hindex, hrecipient, htoken, htreasury, hallowed, hamount, rfl, hepoch, hexpiry⟩
    refine ⟨hindex, hrecipient, _, htoken, _, htreasury, hallowed, _, hamount, ?_⟩
    rw [← hepoch, ← hexpiry]

/-- A payload is read by the arm of its kind, from the route if it is bound to one. -/
theorem payload_eq_ok {bound : Option (Direction × ProtocolChainPair)} {p : EvmAuthPayload} :
    policy.payload keccak document kind requestId bound = .ok p ↔
      match p with
      | .payout a => document.action = actionPayout ∧ ∃ b, bound = some b ∧
        policy.payout keccak document kind requestId b.1 b.2 = .ok a
      | .refund a => document.action = actionRefund ∧ ∃ b, bound = some b ∧
        policy.refund keccak document kind requestId b.1 b.2 = .ok a
      | .settlement a => document.action = actionSettle ∧ ∃ b, bound = some b ∧
        settlement document kind requestId b.1 b.2 = .ok a
      | .treasuryWithdraw a => document.action = actionTreasuryWithdraw ∧
        policy.treasuryWithdraw keccak document kind requestId = .ok a := by
  unfold payload
  split_ifs with hpayout hrefund hsettle hwithdraw
  · have hne : actionPayout ≠ actionRefund ∧ actionPayout ≠ actionSettle ∧
        actionPayout ≠ actionTreasuryWithdraw := by decide
    cases p <;> simp [hpayout, hne]
  · have hne : actionRefund ≠ actionPayout ∧ actionRefund ≠ actionSettle ∧
        actionRefund ≠ actionTreasuryWithdraw := by decide
    cases p <;> simp [hrefund, hne]
  · have hne : actionSettle ≠ actionPayout ∧ actionSettle ≠ actionRefund ∧
        actionSettle ≠ actionTreasuryWithdraw := by decide
    cases p <;> simp [hsettle, hne]
  · have hne : actionTreasuryWithdraw ≠ actionPayout ∧ actionTreasuryWithdraw ≠ actionRefund ∧
        actionTreasuryWithdraw ≠ actionSettle := by decide
    cases p <;> simp [hwithdraw, hne]
  · cases p <;> simp [hpayout, hrefund, hsettle, hwithdraw]

/-- A document of a route-bound action spells a route that is allowed, and the pair
that is held for it. -/
theorem routed_eq_ok (h : document.action ≠ actionTreasuryWithdraw)
    {bound : Option (Direction × ProtocolChainPair)} :
    (∃ o, shapeRoute document kind = .ok o ∧ policy.routeAndChains document kind o = .ok bound) ↔
      ∃ route chains, bound = some (route, chains) ∧ document.treasury = none ∧
        document.route = some route.text ∧ route ∈ policy.allowedRoutes ∧
        policy.heldChains route = some chains ∧
        document.protocolSourceChainId = some chains.source ∧
        document.protocolDestChainId = some chains.dest := by
  simp only [shapeRoute, if_neg h, bind_eq_ok, rejectPresent_eq_ok, exists_unit,
    requireValue_eq_ok, orFail_eq_ok, routeFromStr_eq_some, pure_eq_ok]
  constructor
  · rintro ⟨o, ⟨htreasury, raw, hraw, route, rfl, rfl⟩, hbound⟩
    obtain ⟨⟨route', chains⟩, hchains, rfl⟩ := map_eq_ok.mp hbound
    obtain ⟨rfl, hallowed, hheld, hsource, hdest⟩ := boundChains_eq_ok.mp hchains
    exact ⟨_, chains, rfl, htreasury, hraw, hallowed, hheld, hsource, hdest⟩
  · rintro ⟨route, chains, rfl, htreasury, hraw, hallowed, hheld, hsource, hdest⟩
    refine ⟨some route, ⟨htreasury, _, hraw, route, rfl, rfl⟩, map_eq_ok.mpr ⟨_, ?_, rfl⟩⟩
    exact boundChains_eq_ok.mpr ⟨rfl, hallowed, hheld, hsource, hdest⟩

/-- A document of a withdrawal spells no route. -/
theorem unrouted_eq_ok (h : document.action = actionTreasuryWithdraw)
    {bound : Option (Direction × ProtocolChainPair)} :
    (∃ o, shapeRoute document kind = .ok o ∧ policy.routeAndChains document kind o = .ok bound) ↔
      bound = none ∧ document.route = none ∧ document.protocolSourceChainId = none ∧
        document.protocolDestChainId = none := by
  simp only [shapeRoute, if_pos h, bind_eq_ok, rejectPresent_eq_ok, exists_unit, pure_eq_ok]
  constructor
  · rintro ⟨o, ⟨hroute, hsource, hdest, rfl⟩, hbound⟩
    exact ⟨(Except.ok.inj hbound).symm, hroute, hsource, hdest⟩
  · rintro ⟨rfl, hroute, hsource, hdest⟩
    exact ⟨none, ⟨hroute, hsource, hdest, rfl⟩, rfl⟩

end EvmSignerPolicy

/-! ## The decision and the request -/

/-- A withdrawal of nothing. -/
def EvmAuthRequest.IsZeroWithdrawal (request : EvmAuthRequest) : Prop :=
  request.treasury.isSome ∧ request.amount = some 0

namespace EvmSignerPolicy

/-- What the document says in the fields that some payloads have and others do not,
and what the policy asks of them. -/
structure Fits (policy : EvmSignerPolicy) (keccak : Keccak) (document : EvmAuthSignRequest)
    (requestId : Bytes32) (request : EvmAuthRequest) : Prop where
  route : document.route = request.route.map Direction.text
  source : document.protocolSourceChainId = request.chains.map ProtocolChainPair.source
  dest : document.protocolDestChainId = request.chains.map ProtocolChainPair.dest
  treasury : (addressText keccak).Reads document.treasury request.treasury
  token : (addressText keccak).Reads document.token request.token
  obligationIndex : document.obligationIndex = request.obligationIndex
  recipient : (addressText keccak).Reads document.recipient request.documentRecipient
  amount : amountText.Reads document.amountRobinhoodAtomic request.amount
  requestId : requestId = request.contractRequestId
  signerEpoch : document.signerEpoch = request.signerEpoch
  expiry : document.expiry = request.expiry
  heldToken : ∀ token ∈ request.token, token = policy.token
  heldRoute : ∀ route ∈ request.route, route ∈ policy.allowedRoutes ∧
    policy.heldChains route = request.chains
  ceiling : request.action = actionPayout ∨ request.action = actionRefund →
    ∀ amount ∈ request.amount, amount ≤ policy.maxAmountRobinhoodAtomic
  heldTreasury : ∀ treasury ∈ request.treasury, treasury ∈ policy.allowedTreasuries
  nonzero : ¬ request.IsZeroWithdrawal

variable {policy : EvmSignerPolicy} {keccak : Keccak} {document : EvmAuthSignRequest}
  {kind : String} {requestId : Bytes32} {now : UInt64} {domain : BridgeDomain}

theorem fits_payout {a : Auth.PayoutAuth} :
    (∃ bound, (∃ o, shapeRoute document kind = .ok o ∧
        policy.routeAndChains document kind o = .ok bound) ∧
      policy.payload keccak document kind requestId bound = .ok (.payout a)) ↔
      document.action = actionPayout ∧
        policy.Fits keccak document requestId ⟨domain, .payout a⟩ := by
  constructor
  · rintro ⟨bound, hbound, hpayload⟩
    obtain ⟨haction, b, rfl, harm⟩ := payload_eq_ok.mp hpayload
    have hne : document.action ≠ actionTreasuryWithdraw := by rw [haction]; decide
    obtain ⟨route, chains, hb, htreasury, hroute, hallowed, hheld, hsource, hdest⟩ :=
      (routed_eq_ok hne).mp hbound
    obtain rfl := Option.some.inj hb
    obtain ⟨hindex, htoken, hrecipient, hamount, rfl, rfl, rfl, hepoch, hexpiry⟩ :=
      payout_eq_ok.mp harm
    exact ⟨haction, {
      route := hroute
      source := hsource
      dest := hdest
      treasury := Spelling.reads_none.mpr htreasury
      token := htoken.1
      obligationIndex := hindex
      recipient := hrecipient
      amount := hamount.1
      requestId := rfl
      signerEpoch := hepoch.symm
      expiry := hexpiry.symm
      heldToken := by rintro _ ⟨⟩; exact htoken.2
      heldRoute := by rintro _ ⟨⟩; exact ⟨hallowed, hheld⟩
      ceiling := by rintro _ _ ⟨⟩; exact hamount.2
      heldTreasury := by rintro _ ⟨⟩
      nonzero := by rintro ⟨⟨⟩, _⟩ }⟩
  · rintro ⟨haction, h⟩
    have hne : document.action ≠ actionTreasuryWithdraw := by rw [haction]; decide
    obtain ⟨hallowed, hheld⟩ := h.heldRoute a.route rfl
    refine ⟨some (a.route, a.chains), (routed_eq_ok hne).mpr ⟨a.route, a.chains, rfl,
      Spelling.reads_none.mp h.treasury, h.route, hallowed, hheld, h.source, h.dest⟩,
      payload_eq_ok.mpr ⟨haction, _, rfl, payout_eq_ok.mpr ?_⟩⟩
    exact ⟨h.obligationIndex, ⟨h.token, h.heldToken a.token rfl⟩, h.recipient,
      ⟨h.amount, h.ceiling (.inl rfl) a.amount rfl⟩, rfl, rfl, h.requestId.symm,
      h.signerEpoch.symm, h.expiry.symm⟩

theorem fits_refund {a : Auth.RefundAuth} :
    (∃ bound, (∃ o, shapeRoute document kind = .ok o ∧
        policy.routeAndChains document kind o = .ok bound) ∧
      policy.payload keccak document kind requestId bound = .ok (.refund a)) ↔
      document.action = actionRefund ∧
        policy.Fits keccak document requestId ⟨domain, .refund a⟩ := by
  constructor
  · rintro ⟨bound, hbound, hpayload⟩
    obtain ⟨haction, b, rfl, harm⟩ := payload_eq_ok.mp hpayload
    have hne : document.action ≠ actionTreasuryWithdraw := by rw [haction]; decide
    obtain ⟨route, chains, hb, htreasury, hroute, hallowed, hheld, hsource, hdest⟩ :=
      (routed_eq_ok hne).mp hbound
    obtain rfl := Option.some.inj hb
    obtain ⟨htoken, hindex, hrecipient, hamount, rfl, rfl, rfl, hepoch, hexpiry⟩ :=
      refund_eq_ok.mp harm
    exact ⟨haction, {
      route := hroute
      source := hsource
      dest := hdest
      treasury := Spelling.reads_none.mpr htreasury
      token := htoken.1
      obligationIndex := hindex
      recipient := hrecipient
      amount := hamount.1
      requestId := rfl
      signerEpoch := hepoch.symm
      expiry := hexpiry.symm
      heldToken := by rintro _ ⟨⟩; exact htoken.2
      heldRoute := by rintro _ ⟨⟩; exact ⟨hallowed, hheld⟩
      ceiling := by rintro _ _ ⟨⟩; exact hamount.2
      heldTreasury := by rintro _ ⟨⟩
      nonzero := by rintro ⟨⟨⟩, _⟩ }⟩
  · rintro ⟨haction, h⟩
    have hne : document.action ≠ actionTreasuryWithdraw := by rw [haction]; decide
    obtain ⟨hallowed, hheld⟩ := h.heldRoute a.route rfl
    refine ⟨some (a.route, a.chains), (routed_eq_ok hne).mpr ⟨a.route, a.chains, rfl,
      Spelling.reads_none.mp h.treasury, h.route, hallowed, hheld, h.source, h.dest⟩,
      payload_eq_ok.mpr ⟨haction, _, rfl, refund_eq_ok.mpr ?_⟩⟩
    exact ⟨⟨h.token, h.heldToken a.token rfl⟩, h.obligationIndex, h.recipient,
      ⟨h.amount, h.ceiling (.inr rfl) a.amount rfl⟩, rfl, rfl, h.requestId.symm,
      h.signerEpoch.symm, h.expiry.symm⟩

theorem fits_settlement {a : Auth.SettlementAuth} :
    (∃ bound, (∃ o, shapeRoute document kind = .ok o ∧
        policy.routeAndChains document kind o = .ok bound) ∧
      policy.payload keccak document kind requestId bound = .ok (.settlement a)) ↔
      document.action = actionSettle ∧
        policy.Fits keccak document requestId ⟨domain, .settlement a⟩ := by
  constructor
  · rintro ⟨bound, hbound, hpayload⟩
    obtain ⟨haction, b, rfl, harm⟩ := payload_eq_ok.mp hpayload
    have hne : document.action ≠ actionTreasuryWithdraw := by rw [haction]; decide
    obtain ⟨route, chains, hb, htreasury, hroute, hallowed, hheld, hsource, hdest⟩ :=
      (routed_eq_ok hne).mp hbound
    obtain rfl := Option.some.inj hb
    obtain ⟨htoken, hrecipient, hamount, hindex, rfl, rfl, rfl, hepoch, hexpiry⟩ :=
      settlement_eq_ok.mp harm
    exact ⟨haction, {
      route := hroute
      source := hsource
      dest := hdest
      treasury := Spelling.reads_none.mpr htreasury
      token := Spelling.reads_none.mpr htoken
      obligationIndex := hindex
      recipient := Spelling.reads_none.mpr hrecipient
      amount := Spelling.reads_none.mpr hamount
      requestId := rfl
      signerEpoch := hepoch.symm
      expiry := hexpiry.symm
      heldToken := by rintro _ ⟨⟩
      heldRoute := by rintro _ ⟨⟩; exact ⟨hallowed, hheld⟩
      ceiling := by rintro _ _ ⟨⟩
      heldTreasury := by rintro _ ⟨⟩
      nonzero := by rintro ⟨⟨⟩, _⟩ }⟩
  · rintro ⟨haction, h⟩
    have hne : document.action ≠ actionTreasuryWithdraw := by rw [haction]; decide
    obtain ⟨hallowed, hheld⟩ := h.heldRoute a.route rfl
    refine ⟨some (a.route, a.chains), (routed_eq_ok hne).mpr ⟨a.route, a.chains, rfl,
      Spelling.reads_none.mp h.treasury, h.route, hallowed, hheld, h.source, h.dest⟩,
      payload_eq_ok.mpr ⟨haction, _, rfl, settlement_eq_ok.mpr ?_⟩⟩
    exact ⟨Spelling.reads_none.mp h.token, Spelling.reads_none.mp h.recipient,
      Spelling.reads_none.mp h.amount, h.obligationIndex, rfl, rfl, h.requestId.symm,
      h.signerEpoch.symm, h.expiry.symm⟩

theorem fits_treasuryWithdraw {a : Auth.TreasuryWithdrawAuth} :
    (∃ bound, (∃ o, shapeRoute document kind = .ok o ∧
        policy.routeAndChains document kind o = .ok bound) ∧
      policy.payload keccak document kind requestId bound = .ok (.treasuryWithdraw a)) ↔
      document.action = actionTreasuryWithdraw ∧
        policy.Fits keccak document requestId ⟨domain, .treasuryWithdraw a⟩ := by
  constructor
  · rintro ⟨bound, hbound, hpayload⟩
    obtain ⟨haction, harm⟩ := payload_eq_ok.mp hpayload
    have hne : actionTreasuryWithdraw ≠ actionPayout ∧ actionTreasuryWithdraw ≠ actionRefund := by
      decide
    obtain ⟨-, hroute, hsource, hdest⟩ := (unrouted_eq_ok haction).mp hbound
    obtain ⟨hindex, hrecipient, htoken, htreasury, hallowed, hamount, rfl, hepoch, hexpiry⟩ :=
      treasuryWithdraw_eq_ok.mp harm
    exact ⟨haction, {
      route := hroute
      source := hsource
      dest := hdest
      treasury := htreasury
      token := htoken.1
      obligationIndex := hindex
      recipient := Spelling.reads_none.mpr hrecipient
      amount := hamount.1
      requestId := rfl
      signerEpoch := hepoch.symm
      expiry := hexpiry.symm
      heldToken := by rintro _ ⟨⟩; exact htoken.2
      heldRoute := by rintro _ ⟨⟩
      ceiling := by rintro (h | h); exacts [absurd h hne.1, absurd h hne.2]
      heldTreasury := by rintro _ ⟨⟩; exact hallowed
      nonzero := fun hzero => hamount.2 (Option.some.inj hzero.2) }⟩
  · rintro ⟨haction, h⟩
    refine ⟨none, (unrouted_eq_ok haction).mpr ⟨rfl, h.route, h.source, h.dest⟩,
      payload_eq_ok.mpr ⟨haction, treasuryWithdraw_eq_ok.mpr ?_⟩⟩
    have hne : a.amount ≠ 0 := fun hzero => h.nonzero ⟨rfl, congrArg some hzero⟩
    exact ⟨h.obligationIndex, Spelling.reads_none.mp h.recipient,
      ⟨h.token, h.heldToken a.token rfl⟩, h.treasury, h.heldTreasury a.treasury rfl,
      ⟨h.amount, hne⟩, h.requestId.symm, h.signerEpoch.symm, h.expiry.symm⟩

/-- The payload that is read from a document is the one the document fits. -/
theorem fits_iff (domain : BridgeDomain) {p : EvmAuthPayload} :
    (∃ bound, (∃ o, shapeRoute document kind = .ok o ∧
        policy.routeAndChains document kind o = .ok bound) ∧
      policy.payload keccak document kind requestId bound = .ok p) ↔
      document.action = (EvmAuthRequest.mk domain p).action ∧
        policy.Fits keccak document requestId ⟨domain, p⟩ := by
  cases p with
  | payout a => exact fits_payout
  | refund a => exact fits_refund
  | settlement a => exact fits_settlement
  | treasuryWithdraw a => exact fits_treasuryWithdraw

/-- A policy decides for a request exactly on the documents that spell it, when it
admits the request, the request has a digest and is no withdrawal of nothing. -/
theorem evaluate_eq_ok {decision : EvmAuthDecision} :
    policy.evaluate keccak document now = .ok decision ↔
      document.Spells keccak decision.request decision.digest ∧
      policy.Admits now decision.request ∧
      decision.request.digest keccak = .ok decision.digest ∧
      ¬ decision.request.IsZeroWithdrawal ∧
      decision.summary = decision.request.summary keccak := by
  simp only [evaluate, bind_eq_ok, require_eq_ok, exists_unit, checkDeployment_eq_ok,
    checkLifetime_eq_ok, parseBytes32_eq_ok, mapError_eq_ok, pure_eq_ok]
  constructor
  · rintro ⟨hversion, kind, hkind, hdocument, route, hroute, ⟨hcontract, hchain⟩, hallowed, bound,
      hbound, ⟨halive, hlifetime, hepoch⟩, requestId, hid, payload, hpayload, digest, hdigest,
      expected, hexpected, rfl, rfl⟩
    obtain ⟨haction, hfits⟩ := (fits_iff policy.domain).mp
      ⟨bound, ⟨route, hroute, hbound⟩, hpayload⟩
    have hkind : kind = (EvmAuthRequest.mk policy.domain payload).kindStr := by
      rw [haction, expectedKind_action] at hkind
      exact (Except.ok.inj hkind).symm
    exact ⟨{
      protocolVersion := hversion
      kind := hdocument.trans hkind
      action := haction
      route := hfits.route
      chainId := hchain
      verifyingContract := hcontract
      protocolSourceChainId := hfits.source
      protocolDestChainId := hfits.dest
      treasury := hfits.treasury
      token := hfits.token
      requestId := hfits.requestId ▸ hid
      obligationIndex := hfits.obligationIndex
      recipient := hfits.recipient
      amountRobinhoodAtomic := hfits.amount
      signerEpoch := hfits.signerEpoch
      expiry := hfits.expiry
      expectedDigest := hexpected }, {
      chain := rfl
      contract := rfl
      token := hfits.heldToken
      action := haction ▸ hallowed
      route := hfits.heldRoute
      ceiling := hfits.ceiling
      treasury := hfits.heldTreasury
      alive := hfits.expiry ▸ halive
      lifetime := hfits.expiry ▸ hlifetime
      epoch := hfits.signerEpoch ▸ hepoch }, hdigest, hfits.nonzero, rfl⟩
  · rintro ⟨hspells, hadmits, hdigest, hnonzero, hsummary⟩
    obtain ⟨⟨⟨chainId, verifyingContract, hne⟩, payload⟩, digest, summary⟩ := decision
    obtain rfl : chainId = policy.chainId := hadmits.chain
    obtain rfl : verifyingContract = policy.verifyingContract := hadmits.contract
    obtain rfl : summary = (EvmAuthRequest.mk policy.domain payload).summary keccak := hsummary
    have hfits : policy.Fits keccak document
        (EvmAuthRequest.mk policy.domain payload).contractRequestId ⟨policy.domain, payload⟩ := {
      route := hspells.route
      source := hspells.protocolSourceChainId
      dest := hspells.protocolDestChainId
      treasury := hspells.treasury
      token := hspells.token
      obligationIndex := hspells.obligationIndex
      recipient := hspells.recipient
      amount := hspells.amountRobinhoodAtomic
      requestId := rfl
      signerEpoch := hspells.signerEpoch
      expiry := hspells.expiry
      heldToken := hadmits.token
      heldRoute := hadmits.route
      ceiling := hadmits.ceiling
      heldTreasury := hadmits.treasury
      nonzero := hnonzero }
    obtain ⟨bound, ⟨route, hroute, hbound⟩, hpayload⟩ :=
      (fits_iff policy.domain).mpr ⟨hspells.action, hfits⟩
    refine ⟨hspells.protocolVersion, _, hspells.action ▸ expectedKind_action _, hspells.kind, route,
      hroute, ⟨hspells.verifyingContract, hspells.chainId⟩, hspells.action ▸ hadmits.action, bound,
      hbound, ⟨hspells.expiry ▸ hadmits.alive, hspells.expiry ▸ hadmits.lifetime,
        hspells.signerEpoch ▸ hadmits.epoch⟩, _, hspells.requestId, payload, hpayload, digest,
      hdigest, digest, hspells.expectedDigest, rfl, rfl⟩

end EvmSignerPolicy

/-- Whatever the hash is. A request that has a digest has a document, and every policy
that admits the request decides for it and its digest on that document, unless it is
a withdrawal of nothing. Whatever a policy decides for, the document it read is the
document of that request up to the spelling of hex and decimal texts, the digest is
that of the request, and the policy admits the request. -/
theorem document_and_policy_agree (keccak : Keccak) :
    (∀ (request : EvmAuthRequest) (digest : Bytes32), request.digest keccak = .ok digest →
      ∃ document, EvmAuthSignRequest.fromRequest keccak request = .ok document ∧
        ∀ (policy : EvmSignerPolicy) (now : UInt64), policy.Admits now request →
          ¬ request.IsZeroWithdrawal → ∃ decision,
            policy.evaluate keccak document now = .ok decision ∧ decision.request = request ∧
            decision.digest = digest) ∧
    ∀ (policy : EvmSignerPolicy) (document : EvmAuthSignRequest) (now : UInt64)
      (decision : EvmAuthDecision), policy.evaluate keccak document now = .ok decision →
      (∃ canonical, EvmAuthSignRequest.fromRequest keccak decision.request = .ok canonical ∧
        document.SameUpToSpelling keccak canonical) ∧
      decision.request.digest keccak = .ok decision.digest ∧
      policy.Admits now decision.request := by
  refine ⟨fun request digest hdigest => ?_, fun policy document now decision h => ?_⟩
  · refine ⟨_, EvmAuthSignRequest.fromRequest_eq_ok.mpr ⟨digest, hdigest, rfl⟩, ?_⟩
    intro policy now hadmits hnonzero
    refine ⟨⟨request, digest, request.summary keccak⟩, EvmSignerPolicy.evaluate_eq_ok.mpr ?_, rfl,
      rfl⟩
    exact ⟨EvmAuthSignRequest.spells_ofRequest, hadmits, hdigest, hnonzero, rfl⟩
  · obtain ⟨hspells, hadmits, hdigest, -, -⟩ := EvmSignerPolicy.evaluate_eq_ok.mp h
    exact ⟨⟨_, EvmAuthSignRequest.fromRequest_eq_ok.mpr ⟨_, hdigest, rfl⟩,
      hspells.sameUpToSpelling⟩, hdigest, hadmits⟩

/-! ## A signer -/

def sampleKeccak : Keccak := fun _ => Vector.replicate 32 0xa5

def sampleBridgeDomain : BridgeDomain where
  chainId := 46630
  verifyingContract := Vector.replicate 20 0xcd
  chainId_ne := by decide

/-- A signer of payouts and withdrawals. -/
def sampleSigner : EvmSignerPolicy where
  chainId := 46630
  chainId_ne := by decide
  verifyingContract := Vector.replicate 20 0xcd
  token := samplePayout.token
  allowedActions := [actionPayout, actionTreasuryWithdraw]
  allowedRoutes := [.glcToRhn]
  routeChains := [(.glcToRhn, ⟨10, 20⟩)]
  allowedTreasuries := [Vector.replicate 20 0x3f]
  maxAmountRobinhoodAtomic := 1000
  maxAuthorizationTtlSecs := 3600
  expectedSignerEpoch := some 1

theorem document_and_policy_agree_sample : ∃ document canonical decision,
    EvmAuthSignRequest.fromRequest sampleKeccak ⟨sampleBridgeDomain, .payout samplePayout⟩ =
      .ok document ∧
    sampleSigner.evaluate sampleKeccak document 4000 = .ok decision ∧
    decision.request = ⟨sampleBridgeDomain, .payout samplePayout⟩ ∧
    document.SameUpToSpelling sampleKeccak canonical ∧
    sampleSigner.Admits 4000 decision.request := by
  have hadmits : sampleSigner.Admits 4000 ⟨sampleBridgeDomain, .payout samplePayout⟩ := {
    chain := rfl
    contract := rfl
    token := by rintro _ ⟨⟩; rfl
    action := by decide
    route := by rintro _ ⟨⟩; exact ⟨by decide, by decide⟩
    ceiling := by rintro _ _ ⟨⟩; decide
    treasury := by rintro _ ⟨⟩
    alive := by decide
    lifetime := by decide
    epoch := by rintro _ ⟨⟩; rfl }
  obtain ⟨document, hdocument, hagree⟩ := (document_and_policy_agree sampleKeccak).1
    ⟨sampleBridgeDomain, .payout samplePayout⟩ _ rfl
  obtain ⟨decision, hdecision, hrequest, -⟩ :=
    hagree sampleSigner 4000 hadmits (by rintro ⟨⟨⟩, -⟩)
  obtain ⟨⟨canonical, -, hsame⟩, -, hwithin⟩ := (document_and_policy_agree sampleKeccak).2 _ _ _ _
    hdecision
  exact ⟨document, canonical, decision, hdocument, hdecision, hrequest, hsame, hwithin⟩

/-- A withdrawal of nothing to a treasury the signer has agreed to. -/
def zeroWithdrawal : EvmAuthRequest where
  domain := sampleBridgeDomain
  payload := .treasuryWithdraw ⟨samplePayout.token, Vector.replicate 32 7,
    Vector.replicate 20 0x3f, 0, 1, 5000⟩

/-- It has a digest and a document, and the policy admits it, but it is refused. -/
theorem zero_withdrawal_refused :
    zeroWithdrawal.digest sampleKeccak = .ok (Vector.replicate 32 0xa5) ∧
    sampleSigner.Admits 4000 zeroWithdrawal ∧
    ∃ document, EvmAuthSignRequest.fromRequest sampleKeccak zeroWithdrawal = .ok document ∧
      sampleSigner.evaluate sampleKeccak document 4000 =
        .error (.malformedField "amount_robinhood_atomic" .zeroWithdrawal) := by
  have hadmits : sampleSigner.Admits 4000 zeroWithdrawal := {
    chain := rfl
    contract := rfl
    token := by rintro _ ⟨⟩; rfl
    action := by decide
    route := by rintro _ ⟨⟩
    ceiling := by rintro (h | h) <;> exact absurd h (by decide)
    treasury := by rintro _ ⟨⟩; decide
    alive := by decide
    lifetime := by decide
    epoch := by rintro _ ⟨⟩; rfl }
  exact ⟨rfl, hadmits, _, rfl, by decide +kernel⟩

end Service.Robinhood
