-- SUMMARY: The parser of the claims a custody signer is asked to sign, the messages it accepts, and the governance messages it accepts without knowing their action.
import ReserveBridge.Lib.Guard
import ReserveBridge.Shared.Messages

/-!
# The claim parser of a custody signer

`service/src/signing/policy.rs`. A signer parses the bytes it is asked to sign
into the claim they make. The parser reads the offsets that the builders of
`Shared.Messages` write, and refuses the retired withdrawal. It does not look at
the action byte of a governance message.
-/

namespace Service.Policy
open Bytes Guard Shared

/-! ## The parser -/

def actionOffset : ℕ := 57
def programIdOffset : ℕ := 17
def epochOffset : ℕ := 49

/-- The claim a payload makes. -/
inductive ClaimRequest
  | release (programId : Bytes32) (attestationEpoch : UInt64) (txid : Bytes32) (vout : UInt32)
      (amount : UInt64) (recipient reserveMint : Bytes32)
  | completion (programId : Bytes32) (attestationEpoch obligationIndex amount : UInt64)
  | treasuryWithdraw (programId : Bytes32) (attestationEpoch nonce amount : UInt64)
      (destination reserveMint reserveTokenAccount : Bytes32) (policyVersion : UInt64)
  | refundWithdraw (programId : Bytes32) (attestationEpoch nonce amount : UInt64)
      (destination reserveMint : Bytes32) (obligationIndex : UInt64) (requester : Bytes32)
  | governance (programId : Bytes32) (attestationEpoch : UInt64) (action : UInt8)
      (paramsCommitment : Bytes32)
  deriving DecidableEq

/-- The errors of the parser. -/
inductive PolicyError
  | unknownLength (len : ℕ)
  | unknownDomainTag
  | unknownAction (action : UInt8)
  | actionLengthMismatch (action : UInt8) (len : ℕ)
  deriving DecidableEq, Repr

def requireLen (action : UInt8) (actual expected : ℕ) : Except PolicyError Unit :=
  require (actual = expected) (.actionLengthMismatch action actual)

def readU32 (data : List UInt8) (offset : ℕ) : UInt32 :=
  UInt32.ofNat (leValue ((data.drop offset).take 4))

def readU64 (data : List UInt8) (offset : ℕ) : UInt64 :=
  UInt64.ofNat (leValue ((data.drop offset).take 8))

/-- `read_pubkey`, and `copy_from_slice` into 32 bytes. -/
def readPubkey (data : List UInt8) (offset : ℕ) : Bytes32 :=
  Vector.ofFn fun i => data.getD (offset + i) 0

/-- `parse_claim`. -/
def parseClaim (payload : List UInt8) : Except PolicyError ClaimRequest := do
  require (actionOffset + 1 ≤ payload.length) (.unknownLength payload.length)
  let tag := payload.take 16
  let action := payload.getD actionOffset 0
  let programId := readPubkey payload programIdOffset
  let attestationEpoch := readU64 payload epochOffset
  let len := payload.length
  if tag = governanceDomainTag then
    requireLen action len 90
    return .governance programId attestationEpoch action (readPubkey payload 58)
  require (tag = claimDomainTag) .unknownDomainTag
  if action = actionReleaseFromReserve then
    requireLen action len 166
    return .release programId attestationEpoch (readPubkey payload 58) (readU32 payload 90)
      (readU64 payload 94) (readPubkey payload 102) (readPubkey payload 134)
  else if action = actionRecordGoldcoinCompletion then
    requireLen action len 146
    return .completion programId attestationEpoch (readU64 payload 58) (readU64 payload 106)
  else if action = actionTreasuryWithdraw then
    requireLen action len 178
    return .treasuryWithdraw programId attestationEpoch (readU64 payload 58) (readU64 payload 66)
      (readPubkey payload 74) (readPubkey payload 106) (readPubkey payload 138) (readU64 payload 170)
  else if action = actionRefundWithdraw then
    requireLen action len 210
    return .refundWithdraw programId attestationEpoch (readU64 payload 58) (readU64 payload 66)
      (readPubkey payload 74) (readPubkey payload 106) (readU64 payload 170) (readPubkey payload 178)
  else if action = actionRebalanceWithdraw then
    requireLen action len 138
    .error (.unknownAction action)
  else
    .error (.unknownAction action)

/-! ## What a signer should accept -/

/-- The claim made by a message. The retired withdrawal makes none. -/
def claimOf : Message → Option ClaimRequest
  | .release _ pid epoch txid vout amount recipient mint =>
    some (.release pid epoch txid vout amount recipient mint)
  | .completion _ pid epoch index _ _ amount _ => some (.completion pid epoch index amount)
  | .rebalanceWithdraw .. => none
  | .treasuryWithdraw _ pid epoch nonce amount destination mint account policy =>
    some (.treasuryWithdraw pid epoch nonce amount destination mint account policy)
  | .refundWithdraw _ pid epoch nonce amount destination mint _ index requester =>
    some (.refundWithdraw pid epoch nonce amount destination mint index requester)
  | .governance _ pid epoch action params => some (.governance pid epoch action params)

/-- The five governance actions. -/
def governanceActions : List UInt8 :=
  [actionProposeRotation, actionCancelRotation, actionProposeRebalancePolicy,
    actionCancelRebalancePolicy, actionInitializeRebalancePolicy]

/-- The messages that are in use. -/
def Live : Message → Prop
  | .rebalanceWithdraw .. => False
  | .governance _ _ _ action _ => action ∈ governanceActions
  | _ => True

/-- A payload in the format of a governance message, with an action that is not
one of the five. -/
def UndefinedGovernance (payload : List UInt8) : Prop :=
  payload.take 16 = governanceDomainTag ∧ payload.length = 90 ∧
    payload.getD actionOffset 0 ∉ governanceActions

instance (payload : List UInt8) : Decidable (UndefinedGovernance payload) :=
  inferInstanceAs (Decidable (_ ∧ _ ∧ _))

/-! ## Reading back -/

theorem u32Bytes_readU32 {data : List UInt8} {offset : ℕ} (h : offset + 4 ≤ data.length) :
    u32Bytes (readU32 data offset) = (data.drop offset).take 4 := by
  have hlen : ((data.drop offset).take 4).length = 4 := by
    rw [List.length_take, List.length_drop]
    omega
  have hlt := leValue_lt ((data.drop offset).take 4)
  rw [hlen] at hlt
  have hcast : (readU32 data offset).toNat = leValue ((data.drop offset).take 4) :=
    UInt32.toNat_ofNat_of_lt' hlt
  rw [u32Bytes, hcast]
  have hback := leBytes_leValue ((data.drop offset).take 4)
  rwa [hlen] at hback

theorem u64Bytes_readU64 {data : List UInt8} {offset : ℕ} (h : offset + 8 ≤ data.length) :
    u64Bytes (readU64 data offset) = (data.drop offset).take 8 := by
  have hlen : ((data.drop offset).take 8).length = 8 := by
    rw [List.length_take, List.length_drop]
    omega
  have hlt := leValue_lt ((data.drop offset).take 8)
  rw [hlen] at hlt
  have hcast : (readU64 data offset).toNat = leValue ((data.drop offset).take 8) :=
    UInt64.toNat_ofNat_of_lt' hlt
  rw [u64Bytes, hcast]
  have hback := leBytes_leValue ((data.drop offset).take 8)
  rwa [hlen] at hback

theorem toList_readPubkey {data : List UInt8} {offset : ℕ} (h : offset + 32 ≤ data.length) :
    (readPubkey data offset).toList = (data.drop offset).take 32 := by
  refine List.ext_getElem ?_ fun i hi _ => ?_
  · rw [Vector.length_toList, List.length_take, List.length_drop]
    omega
  · have hi : i < 32 := by simpa using hi
    have hget : (readPubkey data offset)[i] = data.getD (offset + i) 0 := Vector.getElem_ofFn hi
    rw [Vector.getElem_toList, hget, List.getElem_take, List.getElem_drop,
      List.getD_eq_getElem?_getD, List.getElem?_eq_getElem (by omega), Option.getD_some]

theorem singleton_getD {data : List UInt8} {offset : ℕ} (h : offset + 1 ≤ data.length) :
    [data.getD offset 0] = (data.drop offset).take 1 := by
  rw [List.drop_eq_getElem_cons (by omega), List.getD_eq_getElem?_getD,
    List.getElem?_eq_getElem (by omega)]
  rfl

/-- A field and what follows it. -/
theorem take_append_rest {data rest : List UInt8} {offset size next : ℕ}
    (hnext : offset + size = next) (hrest : rest = data.drop next) :
    (data.drop offset).take size ++ rest = data.drop offset := by
  rw [hrest, ← hnext, ← List.drop_drop, List.take_append_drop]

/-- The last field. -/
theorem take_rest {data : List UInt8} {offset size : ℕ} (h : data.length = offset + size) :
    (data.drop offset).take size = data.drop offset :=
  List.take_of_length_le (by rw [List.length_drop]; omega)

/-- The header that a payload starts with. -/
theorem header_append {payload rest : List UInt8} (hlen : 58 ≤ payload.length)
    (hrest : rest = payload.drop 58) :
    header (payload.take 16) (payload.getD 16 0) (readPubkey payload programIdOffset)
      (readU64 payload epochOffset) (payload.getD actionOffset 0) ++ rest = payload := by
  rw [header, singleton_getD (by omega), toList_readPubkey (by rw [programIdOffset]; omega),
    u64Bytes_readU64 (by rw [epochOffset]; omega), singleton_getD (by rw [actionOffset]; omega)]
  simp only [List.append_assoc]
  have hfields : (payload.drop 16).take 1 ++ ((payload.drop programIdOffset).take 32 ++
      ((payload.drop epochOffset).take 8 ++ ((payload.drop actionOffset).take 1 ++ rest))) =
      payload.drop 16 :=
    take_append_rest rfl (take_append_rest rfl (take_append_rest rfl (take_append_rest rfl hrest)))
  rw [hfields, List.take_append_drop]

/-- A message is a payload when its header and its body are the payload's. -/
theorem bytes_eq_payload {m : Message} {payload : List UInt8} (hlen : 58 ≤ payload.length)
    (htag : payload.take 16 = m.tag) (hversion : m.protocolVersion = payload.getD 16 0)
    (hpid : m.programId = readPubkey payload programIdOffset)
    (hepoch : m.epoch = readU64 payload epochOffset)
    (haction : payload.getD actionOffset 0 = m.action) (hbody : m.body = payload.drop 58) :
    m.bytes = payload := by
  rw [Message.bytes_eq, ← htag, hversion, hpid, hepoch, ← haction]
  exact header_append hlen hbody

section Read

variable (payload : List UInt8)

/-- The message of each format that a payload is read as. -/
def readRelease : Message :=
  .release (payload.getD 16 0) (readPubkey payload programIdOffset) (readU64 payload epochOffset)
    (readPubkey payload 58) (readU32 payload 90) (readU64 payload 94) (readPubkey payload 102)
    (readPubkey payload 134)

def readCompletion : Message :=
  .completion (payload.getD 16 0) (readPubkey payload programIdOffset)
    (readU64 payload epochOffset) (readU64 payload 58) (readPubkey payload 66) (readU64 payload 98)
    (readU64 payload 106) (readPubkey payload 114)

def readTreasuryWithdraw : Message :=
  .treasuryWithdraw (payload.getD 16 0) (readPubkey payload programIdOffset)
    (readU64 payload epochOffset) (readU64 payload 58) (readU64 payload 66) (readPubkey payload 74)
    (readPubkey payload 106) (readPubkey payload 138) (readU64 payload 170)

def readRefundWithdraw : Message :=
  .refundWithdraw (payload.getD 16 0) (readPubkey payload programIdOffset)
    (readU64 payload epochOffset) (readU64 payload 58) (readU64 payload 66) (readPubkey payload 74)
    (readPubkey payload 106) (readPubkey payload 138) (readU64 payload 170)
    (readPubkey payload 178)

def readGovernance : Message :=
  .governance (payload.getD 16 0) (readPubkey payload programIdOffset)
    (readU64 payload epochOffset) (payload.getD actionOffset 0) (readPubkey payload 58)

variable {payload}

theorem bytes_readRelease (hlen : payload.length = 166) (htag : payload.take 16 = claimDomainTag)
    (haction : payload.getD actionOffset 0 = actionReleaseFromReserve) :
    (readRelease payload).bytes = payload := by
  refine bytes_eq_payload (by omega) htag rfl rfl rfl haction ?_
  rw [readRelease, Message.body, toList_readPubkey (by omega), u32Bytes_readU32 (by omega),
    u64Bytes_readU64 (by omega), toList_readPubkey (by omega), toList_readPubkey (by omega)]
  exact take_append_rest rfl (take_append_rest rfl (take_append_rest rfl (take_append_rest rfl
    (take_rest (by omega)))))

theorem bytes_readCompletion (hlen : payload.length = 146)
    (htag : payload.take 16 = claimDomainTag)
    (haction : payload.getD actionOffset 0 = actionRecordGoldcoinCompletion) :
    (readCompletion payload).bytes = payload := by
  refine bytes_eq_payload (by omega) htag rfl rfl rfl haction ?_
  rw [readCompletion, Message.body, u64Bytes_readU64 (by omega), toList_readPubkey (by omega),
    u64Bytes_readU64 (by omega), u64Bytes_readU64 (by omega), toList_readPubkey (by omega)]
  exact take_append_rest rfl (take_append_rest rfl (take_append_rest rfl (take_append_rest rfl
    (take_rest (by omega)))))

theorem bytes_readTreasuryWithdraw (hlen : payload.length = 178)
    (htag : payload.take 16 = claimDomainTag)
    (haction : payload.getD actionOffset 0 = actionTreasuryWithdraw) :
    (readTreasuryWithdraw payload).bytes = payload := by
  refine bytes_eq_payload (by omega) htag rfl rfl rfl haction ?_
  rw [readTreasuryWithdraw, Message.body, u64Bytes_readU64 (by omega), u64Bytes_readU64 (by omega),
    toList_readPubkey (by omega), toList_readPubkey (by omega), toList_readPubkey (by omega),
    u64Bytes_readU64 (by omega)]
  exact take_append_rest rfl (take_append_rest rfl (take_append_rest rfl (take_append_rest rfl
    (take_append_rest rfl (take_rest (by omega))))))

theorem bytes_readRefundWithdraw (hlen : payload.length = 210)
    (htag : payload.take 16 = claimDomainTag)
    (haction : payload.getD actionOffset 0 = actionRefundWithdraw) :
    (readRefundWithdraw payload).bytes = payload := by
  refine bytes_eq_payload (by omega) htag rfl rfl rfl haction ?_
  rw [readRefundWithdraw, Message.body, u64Bytes_readU64 (by omega), u64Bytes_readU64 (by omega),
    toList_readPubkey (by omega), toList_readPubkey (by omega), toList_readPubkey (by omega),
    u64Bytes_readU64 (by omega), toList_readPubkey (by omega)]
  exact take_append_rest rfl (take_append_rest rfl (take_append_rest rfl (take_append_rest rfl
    (take_append_rest rfl (take_append_rest rfl (take_rest (by omega)))))))

theorem bytes_readGovernance (hlen : payload.length = 90)
    (htag : payload.take 16 = governanceDomainTag) : (readGovernance payload).bytes = payload := by
  refine bytes_eq_payload (by omega) htag rfl rfl rfl rfl ?_
  rw [readGovernance, Message.body, toList_readPubkey (by omega), take_rest hlen]

end Read

/-! ## Acceptance -/

theorem take_bytes (m : Message) : m.bytes.take 16 = m.tag := by
  rw [Message.bytes_eq, header, List.append_assoc, List.take_append_of_le_length (by simp),
    List.take_of_length_le (by simp)]

theorem getD_bytes (m : Message) : m.bytes.getD actionOffset 0 = m.action := by
  have hlen : (m.tag ++ ([m.protocolVersion] ++ (m.programId.toList ++ u64Bytes m.epoch))).length =
      57 := by simp
  have hbytes : m.bytes = (m.tag ++ ([m.protocolVersion] ++ (m.programId.toList ++
      u64Bytes m.epoch))) ++ m.action :: m.body := by
    rw [Message.bytes_eq, header]
    simp
  rw [hbytes, List.getD_eq_getElem?_getD, List.getElem?_append_right (by rw [hlen, actionOffset]),
    hlen]
  rfl

theorem length_bytes (m : Message) : m.bytes.length = 58 + m.body.length := by
  rw [Message.bytes_eq, List.length_append, length_header m.length_tag]

/-- A message in the format that a payload is read as is the one it is read as. -/
theorem eq_read {m m' : Message} {payload : List UInt8} (h : m.bytes = payload)
    (h' : m'.bytes = payload) : m' = m := Message.bytes_injective (h'.trans h.symm)

/-- The parser accepts the messages that make a claim, whatever the action of a
governance message is. -/
theorem parseClaim_eq_ok {payload : List UInt8} {claim : ClaimRequest} :
    parseClaim payload = .ok claim ↔ ∃ m, m.bytes = payload ∧ claimOf m = some claim := by
  constructor
  · intro h
    simp only [parseClaim, requireLen, bind_eq_ok, require_eq_ok, exists_unit] at h
    obtain ⟨-, h⟩ := h
    split_ifs at h with htag hrelease hcompletion htreasury hrefund hrebalance
    · simp only [bind_eq_ok, require_eq_ok, exists_unit, pure_eq_ok] at h
      obtain ⟨hlen, rfl⟩ := h
      exact ⟨readGovernance payload, bytes_readGovernance hlen htag, rfl⟩
    all_goals simp only [bind_eq_ok, require_eq_ok, exists_unit, pure_eq_ok, reduceCtorEq,
      and_false] at h
    · obtain ⟨htag, hlen, rfl⟩ := h
      exact ⟨readRelease payload, bytes_readRelease hlen htag hrelease, rfl⟩
    · obtain ⟨htag, hlen, rfl⟩ := h
      exact ⟨readCompletion payload, bytes_readCompletion hlen htag hcompletion, rfl⟩
    · obtain ⟨htag, hlen, rfl⟩ := h
      exact ⟨readTreasuryWithdraw payload, bytes_readTreasuryWithdraw hlen htag htreasury, rfl⟩
    · obtain ⟨htag, hlen, rfl⟩ := h
      exact ⟨readRefundWithdraw payload, bytes_readRefundWithdraw hlen htag hrefund, rfl⟩
  · rintro ⟨m, rfl, hclaim⟩
    have htags : claimDomainTag ≠ governanceDomainTag := by decide
    have htag := take_bytes m
    have haction := getD_bytes m
    have hlen := length_bytes m
    have hpos : actionOffset + 1 ≤ m.bytes.length := by
      rw [actionOffset]
      omega
    generalize hpayload : m.bytes = payload at *
    have hsame {m' : Message} (h' : m'.bytes = payload) : claimOf m' = some claim := by
      rw [eq_read hpayload h', hclaim]
    cases m with
    | rebalanceWithdraw => cases hclaim
    | governance =>
      replace htag : payload.take 16 = governanceDomainTag := htag
      simp only [Message.body, Vector.length_toList] at hlen
      obtain rfl := Option.some.inj (hsame (bytes_readGovernance hlen htag))
      simp only [parseClaim, requireLen, bind_eq_ok, require_eq_ok, exists_unit, pure_eq_ok, hlen,
        htag, ↓reduceIte]
      exact ⟨by decide, trivial, trivial⟩
    | release =>
      replace htag : payload.take 16 = claimDomainTag := htag
      replace haction : payload.getD actionOffset 0 = actionReleaseFromReserve := haction
      simp only [Message.body, List.length_append, Vector.length_toList, length_u32Bytes,
        length_u64Bytes] at hlen
      obtain rfl := Option.some.inj (hsame (bytes_readRelease hlen htag haction))
      simp only [parseClaim, requireLen, bind_eq_ok, require_eq_ok, exists_unit, pure_eq_ok, hlen,
        htag, haction, htags, ↓reduceIte]
      exact ⟨by decide, trivial, trivial, trivial⟩
    | completion =>
      replace htag : payload.take 16 = claimDomainTag := htag
      replace haction : payload.getD actionOffset 0 = actionRecordGoldcoinCompletion := haction
      simp only [Message.body, List.length_append, Vector.length_toList, length_u64Bytes] at hlen
      obtain rfl := Option.some.inj (hsame (bytes_readCompletion hlen htag haction))
      have hne₁ : actionRecordGoldcoinCompletion ≠ actionReleaseFromReserve := by decide
      simp only [parseClaim, requireLen, bind_eq_ok, require_eq_ok, exists_unit, pure_eq_ok, hlen,
        htag, haction, htags, hne₁, ↓reduceIte]
      exact ⟨by decide, trivial, trivial, trivial⟩
    | treasuryWithdraw =>
      replace htag : payload.take 16 = claimDomainTag := htag
      replace haction : payload.getD actionOffset 0 = actionTreasuryWithdraw := haction
      simp only [Message.body, List.length_append, Vector.length_toList, length_u64Bytes] at hlen
      obtain rfl := Option.some.inj (hsame (bytes_readTreasuryWithdraw hlen htag haction))
      have hne₁ : actionTreasuryWithdraw ≠ actionReleaseFromReserve := by decide
      have hne₂ : actionTreasuryWithdraw ≠ actionRecordGoldcoinCompletion := by decide
      simp only [parseClaim, requireLen, bind_eq_ok, require_eq_ok, exists_unit, pure_eq_ok, hlen,
        htag, haction, htags, hne₁, hne₂, ↓reduceIte]
      exact ⟨by decide, trivial, trivial, trivial⟩
    | refundWithdraw =>
      replace htag : payload.take 16 = claimDomainTag := htag
      replace haction : payload.getD actionOffset 0 = actionRefundWithdraw := haction
      simp only [Message.body, List.length_append, Vector.length_toList, length_u64Bytes] at hlen
      obtain rfl := Option.some.inj (hsame (bytes_readRefundWithdraw hlen htag haction))
      have hne₁ : actionRefundWithdraw ≠ actionReleaseFromReserve := by decide
      have hne₂ : actionRefundWithdraw ≠ actionRecordGoldcoinCompletion := by decide
      have hne₃ : actionRefundWithdraw ≠ actionTreasuryWithdraw := by decide
      simp only [parseClaim, requireLen, bind_eq_ok, require_eq_ok, exists_unit, pure_eq_ok, hlen,
        htag, haction, htags, hne₁, hne₂, hne₃, ↓reduceIte]
      exact ⟨by decide, trivial, trivial, trivial⟩

/-- A governance message whose action is not defined is accepted. -/
theorem accepts_undefined {payload : List UInt8} (h : UndefinedGovernance payload) :
    ¬ ∀ claim, parseClaim payload = .ok claim ↔
      ∃ m, Live m ∧ m.bytes = payload ∧ claimOf m = some claim := by
  obtain ⟨htag, hlen, hundefined⟩ := h
  intro hall
  have hparse := parseClaim_eq_ok.mpr ⟨readGovernance payload, bytes_readGovernance hlen htag, rfl⟩
  obtain ⟨m, hlive, rfl, hclaim⟩ := (hall _).mp hparse
  rw [getD_bytes] at hundefined
  cases m with
  | governance => exact hundefined hlive
  | _ => cases hclaim

/-- The parser accepts the messages in use and nothing else, with the arguments
they were built from, exactly where the payload is not a governance message with
an action that is not defined. -/
theorem parses_live_iff (payload : List UInt8) :
    (∀ claim, parseClaim payload = .ok claim ↔
      ∃ m, Live m ∧ m.bytes = payload ∧ claimOf m = some claim) ↔
      ¬ UndefinedGovernance payload := by
  constructor
  · exact fun hall hundefined => accepts_undefined hundefined hall
  · intro hdefined claim
    rw [parseClaim_eq_ok]
    constructor
    · rintro ⟨m, rfl, hclaim⟩
      refine ⟨m, ?_, rfl, hclaim⟩
      cases m with
      | rebalanceWithdraw => cases hclaim
      | governance v pid epoch action params =>
        by_contra hundefined
        refine hdefined ⟨take_bytes _, Message.length_governanceMessage v pid epoch action params, ?_⟩
        rw [getD_bytes]
        exact hundefined
      | _ => trivial
    · rintro ⟨m, -, hbytes, hclaim⟩
      exact ⟨m, hbytes, hclaim⟩

/-- A governance message with action 0, which is no action. -/
theorem accepts_undefined_action :
    ¬ ∀ (payload : List UInt8) (claim : ClaimRequest), parseClaim payload = .ok claim ↔
      ∃ m, Live m ∧ m.bytes = payload ∧ claimOf m = some claim := by
  intro hall
  have hundefined : UndefinedGovernance
      (governanceMessage 1 (Vector.replicate 32 0) 0 0 (Vector.replicate 32 0)) := by decide +kernel
  exact accepts_undefined hundefined (hall _)

end Service.Policy
