-- SUMMARY: The signed-message formats of the shared crate: claim and governance message builders, parameter encodings, and their joint injectivity.
import ReserveBridge.Lib.Bytes

/-!
# Signed messages

The builders of `shared/src/claim.rs` and `shared/src/governance.rs`. A message
is a zeroed buffer of fixed length into which each field is copied at a
constant offset. The six formats start with the same 58 bytes: domain tag,
protocol version, program id, epoch and action.
-/

namespace Shared
open Bytes

/-! ## Tags and actions -/

def claimDomainTag : List UInt8 :=
  ['G', 'L', 'C', '_', 'R', 'S', 'V', '_', 'C', 'L', 'A', 'I', 'M', '_', 'V', '1'].map Char.toUInt8

def governanceDomainTag : List UInt8 :=
  ['G', 'L', 'C', '_', 'R', 'S', 'V', '_', 'G', 'O', 'V', 'R', 'N', '_', 'V', '1'].map Char.toUInt8

def actionReleaseFromReserve : UInt8 := 0x01
def actionRecordGoldcoinCompletion : UInt8 := 0x02
def actionRebalanceWithdraw : UInt8 := 0x03
def actionTreasuryWithdraw : UInt8 := 0x05
def actionRefundWithdraw : UInt8 := 0x06

def actionProposeRotation : UInt8 := 0x03
def actionCancelRotation : UInt8 := 0x04
def actionProposeRebalancePolicy : UInt8 := 0x07
def actionCancelRebalancePolicy : UInt8 := 0x08
def actionInitializeRebalancePolicy : UInt8 := 0x09

/-! ## Message builders -/

def releaseClaimMessage (protocolVersion : UInt8) (programId : Bytes32)
    (attestationEpoch : UInt64) (txid : Bytes32) (vout : UInt32) (amount : UInt64)
    (recipient reserveTokenMint : Bytes32) : List UInt8 :=
  fill 166 [
    (0, claimDomainTag),
    (16, [protocolVersion]),
    (17, programId.toList),
    (49, u64Bytes attestationEpoch),
    (57, [actionReleaseFromReserve]),
    (58, txid.toList),
    (90, u32Bytes vout),
    (94, u64Bytes amount),
    (102, recipient.toList),
    (134, reserveTokenMint.toList)]

def goldcoinCompletionMessage (protocolVersion : UInt8) (programId : Bytes32)
    (attestationEpoch obligationIndex : UInt64) (payoutTxid : Bytes32)
    (payoutHeight amount : UInt64) (destCommitment : Bytes32) : List UInt8 :=
  fill 146 [
    (0, claimDomainTag),
    (16, [protocolVersion]),
    (17, programId.toList),
    (49, u64Bytes attestationEpoch),
    (57, [actionRecordGoldcoinCompletion]),
    (58, u64Bytes obligationIndex),
    (66, payoutTxid.toList),
    (98, u64Bytes payoutHeight),
    (106, u64Bytes amount),
    (114, destCommitment.toList)]

def rebalanceWithdrawClaimMessage (protocolVersion : UInt8) (programId : Bytes32)
    (attestationEpoch nonce amount : UInt64) (destination reserveTokenMint : Bytes32) :
    List UInt8 :=
  fill 138 [
    (0, claimDomainTag),
    (16, [protocolVersion]),
    (17, programId.toList),
    (49, u64Bytes attestationEpoch),
    (57, [actionRebalanceWithdraw]),
    (58, u64Bytes nonce),
    (66, u64Bytes amount),
    (74, destination.toList),
    (106, reserveTokenMint.toList)]

def treasuryWithdrawClaimMessage (protocolVersion : UInt8) (programId : Bytes32)
    (attestationEpoch nonce amount : UInt64)
    (destination reserveTokenMint reserveTokenAccount : Bytes32) (policyVersion : UInt64) :
    List UInt8 :=
  fill 178 [
    (0, claimDomainTag),
    (16, [protocolVersion]),
    (17, programId.toList),
    (49, u64Bytes attestationEpoch),
    (57, [actionTreasuryWithdraw]),
    (58, u64Bytes nonce),
    (66, u64Bytes amount),
    (74, destination.toList),
    (106, reserveTokenMint.toList),
    (138, reserveTokenAccount.toList),
    (170, u64Bytes policyVersion)]

def refundWithdrawClaimMessage (protocolVersion : UInt8) (programId : Bytes32)
    (attestationEpoch nonce amount : UInt64)
    (destination reserveTokenMint reserveTokenAccount : Bytes32) (obligationIndex : UInt64)
    (requester : Bytes32) : List UInt8 :=
  fill 210 [
    (0, claimDomainTag),
    (16, [protocolVersion]),
    (17, programId.toList),
    (49, u64Bytes attestationEpoch),
    (57, [actionRefundWithdraw]),
    (58, u64Bytes nonce),
    (66, u64Bytes amount),
    (74, destination.toList),
    (106, reserveTokenMint.toList),
    (138, reserveTokenAccount.toList),
    (170, u64Bytes obligationIndex),
    (178, requester.toList)]

def governanceMessage (protocolVersion : UInt8) (programId : Bytes32) (epoch : UInt64)
    (action : UInt8) (paramsCommitment : Bytes32) : List UInt8 :=
  fill 90 [
    (0, governanceDomainTag),
    (16, [protocolVersion]),
    (17, programId.toList),
    (49, u64Bytes epoch),
    (57, [action]),
    (58, paramsCommitment.toList)]

/-! ## Governance parameters -/

/-- The key count is cast to 32 bits. -/
def rotationParams (threshold : UInt8) (keys : List Bytes32) : List UInt8 :=
  [threshold] ++ u32Bytes (UInt32.ofNat keys.length) ++ keys.flatMap Vector.toList

/-- The treasury count is cast to 8 bits. -/
def rebalancePolicyParams (treasuries : List Bytes32) : List UInt8 :=
  [UInt8.ofNat treasuries.length] ++ treasuries.flatMap Vector.toList

def cancelParams (pendingAction : UInt8) (pendingEta : Int64) : List UInt8 :=
  [pendingAction] ++ i64Bytes pendingEta

/-! ## Layout -/

/-- The first 58 bytes of every message. -/
def header (tag : List UInt8) (protocolVersion : UInt8) (programId : Bytes32) (epoch : UInt64)
    (action : UInt8) : List UInt8 :=
  tag ++ ([protocolVersion] ++ (programId.toList ++ (u64Bytes epoch ++ [action])))

@[simp] theorem length_claimDomainTag : claimDomainTag.length = 16 := rfl
@[simp] theorem length_governanceDomainTag : governanceDomainTag.length = 16 := rfl

theorem length_header {tag : List UInt8} (htag : tag.length = 16) (protocolVersion : UInt8)
    (programId : Bytes32) (epoch : UInt64) (action : UInt8) :
    (header tag protocolVersion programId epoch action).length = 58 := by
  simp [header, htag]

/-- The header determines its fields. -/
theorem header_inj {tag tag' : List UInt8} {v v' action action' : UInt8} {pid pid' : Bytes32}
    {epoch epoch' : UInt64} (htag : tag.length = 16) (htag' : tag'.length = 16)
    (h : header tag v pid epoch action = header tag' v' pid' epoch' action') :
    tag = tag' ∧ v = v' ∧ pid = pid' ∧ epoch = epoch' ∧ action = action' := by
  simp (disch := simp [htag, htag']) only [header, append_eq_append, Vector.toList_inj,
    u64Bytes_inj, List.cons.injEq, and_true] at h
  exact h

/-- A call of one of the six builders. -/
inductive Message
  | release (protocolVersion : UInt8) (programId : Bytes32) (attestationEpoch : UInt64)
      (txid : Bytes32) (vout : UInt32) (amount : UInt64) (recipient reserveTokenMint : Bytes32)
  | completion (protocolVersion : UInt8) (programId : Bytes32)
      (attestationEpoch obligationIndex : UInt64) (payoutTxid : Bytes32)
      (payoutHeight amount : UInt64) (destCommitment : Bytes32)
  | rebalanceWithdraw (protocolVersion : UInt8) (programId : Bytes32)
      (attestationEpoch nonce amount : UInt64) (destination reserveTokenMint : Bytes32)
  | treasuryWithdraw (protocolVersion : UInt8) (programId : Bytes32)
      (attestationEpoch nonce amount : UInt64)
      (destination reserveTokenMint reserveTokenAccount : Bytes32) (policyVersion : UInt64)
  | refundWithdraw (protocolVersion : UInt8) (programId : Bytes32)
      (attestationEpoch nonce amount : UInt64)
      (destination reserveTokenMint reserveTokenAccount : Bytes32) (obligationIndex : UInt64)
      (requester : Bytes32)
  | governance (protocolVersion : UInt8) (programId : Bytes32) (epoch : UInt64) (action : UInt8)
      (paramsCommitment : Bytes32)

/-- The six formats. -/
inductive Family
  | release | completion | rebalanceWithdraw | treasuryWithdraw | refundWithdraw | governance
  deriving DecidableEq, Repr

namespace Message

def bytes : Message → List UInt8
  | .release v pid epoch txid vout amount recipient mint =>
    releaseClaimMessage v pid epoch txid vout amount recipient mint
  | .completion v pid epoch index txid height amount dest =>
    goldcoinCompletionMessage v pid epoch index txid height amount dest
  | .rebalanceWithdraw v pid epoch nonce amount destination mint =>
    rebalanceWithdrawClaimMessage v pid epoch nonce amount destination mint
  | .treasuryWithdraw v pid epoch nonce amount destination mint account policy =>
    treasuryWithdrawClaimMessage v pid epoch nonce amount destination mint account policy
  | .refundWithdraw v pid epoch nonce amount destination mint account index requester =>
    refundWithdrawClaimMessage v pid epoch nonce amount destination mint account index requester
  | .governance v pid epoch action params => governanceMessage v pid epoch action params

def family : Message → Family
  | .release .. => .release
  | .completion .. => .completion
  | .rebalanceWithdraw .. => .rebalanceWithdraw
  | .treasuryWithdraw .. => .treasuryWithdraw
  | .refundWithdraw .. => .refundWithdraw
  | .governance .. => .governance

def tag : Message → List UInt8
  | .governance .. => governanceDomainTag
  | _ => claimDomainTag

def action : Message → UInt8
  | .release .. => actionReleaseFromReserve
  | .completion .. => actionRecordGoldcoinCompletion
  | .rebalanceWithdraw .. => actionRebalanceWithdraw
  | .treasuryWithdraw .. => actionTreasuryWithdraw
  | .refundWithdraw .. => actionRefundWithdraw
  | .governance _ _ _ action _ => action

def protocolVersion : Message → UInt8
  | .release v .. | .completion v .. | .rebalanceWithdraw v .. | .treasuryWithdraw v ..
  | .refundWithdraw v .. | .governance v .. => v

def programId : Message → Bytes32
  | .release _ pid .. | .completion _ pid .. | .rebalanceWithdraw _ pid ..
  | .treasuryWithdraw _ pid .. | .refundWithdraw _ pid .. | .governance _ pid .. => pid

def epoch : Message → UInt64
  | .release _ _ epoch .. | .completion _ _ epoch .. | .rebalanceWithdraw _ _ epoch ..
  | .treasuryWithdraw _ _ epoch .. | .refundWithdraw _ _ epoch ..
  | .governance _ _ epoch _ _ => epoch

/-- The bytes after the header. -/
def body : Message → List UInt8
  | .release _ _ _ txid vout amount recipient mint =>
    txid.toList ++ (u32Bytes vout ++ (u64Bytes amount ++ (recipient.toList ++ mint.toList)))
  | .completion _ _ _ index txid height amount dest =>
    u64Bytes index ++ (txid.toList ++ (u64Bytes height ++ (u64Bytes amount ++ dest.toList)))
  | .rebalanceWithdraw _ _ _ nonce amount destination mint =>
    u64Bytes nonce ++ (u64Bytes amount ++ (destination.toList ++ mint.toList))
  | .treasuryWithdraw _ _ _ nonce amount destination mint account policy =>
    u64Bytes nonce ++ (u64Bytes amount ++ (destination.toList ++ (mint.toList ++
      (account.toList ++ u64Bytes policy))))
  | .refundWithdraw _ _ _ nonce amount destination mint account index requester =>
    u64Bytes nonce ++ (u64Bytes amount ++ (destination.toList ++ (mint.toList ++
      (account.toList ++ (u64Bytes index ++ requester.toList)))))
  | .governance _ _ _ _ params => params.toList

/-- The writes of each builder are contiguous and cover its buffer. -/
theorem bytes_eq (m : Message) :
    m.bytes = header m.tag m.protocolVersion m.programId m.epoch m.action ++ m.body := by
  cases m <;>
    simp only [bytes, releaseClaimMessage, goldcoinCompletionMessage,
      rebalanceWithdrawClaimMessage, treasuryWithdrawClaimMessage, refundWithdrawClaimMessage,
      governanceMessage] <;>
    rw [fill_eq_flatten (by simp [Contiguous])] <;>
    simp [header, tag, protocolVersion, programId, epoch, action, body]

@[simp] theorem length_tag (m : Message) : m.tag.length = 16 := by
  cases m <;> rfl

theorem length_governanceMessage (v : UInt8) (pid : Bytes32) (epoch : UInt64) (action : UInt8)
    (params : Bytes32) : (governanceMessage v pid epoch action params).length = 90 := by
  have hbytes := bytes_eq (.governance v pid epoch action params)
  rw [bytes] at hbytes
  simp [hbytes, length_header, body]

/-- A message whose header agrees with another's is in the same format. -/
theorem family_eq {m m' : Message} (htag : m.tag = m'.tag) (haction : m.action = m'.action) :
    m.family = m'.family := by
  have htags : claimDomainTag ≠ governanceDomainTag := by decide
  cases m <;> cases m' <;>
    first
      | rfl
      | exact absurd haction (by simp only [action]; decide)
      | exact absurd htag htags
      | exact absurd htag htags.symm

/-- Equal headers and bodies of one format determine all arguments. -/
theorem eq_of_header_body {m m' : Message} (hfamily : m.family = m'.family)
    (hversion : m.protocolVersion = m'.protocolVersion) (hpid : m.programId = m'.programId)
    (hepoch : m.epoch = m'.epoch) (haction : m.action = m'.action) (hbody : m.body = m'.body) :
    m = m' := by
  cases m <;> cases m' <;> simp only [family, reduceCtorEq] at hfamily <;>
    simp only [protocolVersion, programId, epoch, action] at hversion hpid hepoch haction <;>
    simp (disch := simp) only [body, append_eq_append, Vector.toList_inj, u32Bytes_inj,
      u64Bytes_inj] at hbody <;>
    simp_all

theorem bytes_injective : Function.Injective bytes := by
  intro m m' h
  rw [bytes_eq, bytes_eq, append_eq_append (by simp [length_header])] at h
  obtain ⟨htag, hversion, hpid, hepoch, haction⟩ := header_inj m.length_tag m'.length_tag h.1
  exact eq_of_header_body (family_eq htag haction) hversion hpid hepoch haction h.2

/-- Across formats no message is a prefix of another: the headers differ. -/
theorem not_prefix {m m' : Message} (h : m.family ≠ m'.family) : ¬ m.bytes <+: m'.bytes := by
  rintro ⟨rest, heq⟩
  rw [bytes_eq, bytes_eq, List.append_assoc, append_eq_append (by simp [length_header])] at heq
  obtain ⟨htag, -, -, -, haction⟩ := header_inj m.length_tag m'.length_tag heq.1
  exact h (family_eq htag haction)

end Message

/-! ## Parameter encodings -/

/-- The keys of a parameter list can be read back from their concatenation. -/
theorem flatMap_toList_inj {keys keys' : List Bytes32}
    (h : keys.flatMap Vector.toList = keys'.flatMap Vector.toList) : keys = keys' := by
  induction keys generalizing keys' with
  | nil =>
    cases keys' with
    | nil => rfl
    | cons k' keys' =>
      have hlength := congrArg List.length h
      simp at hlength
      omega
  | cons k keys ih =>
    cases keys' with
    | nil => exact absurd (congrArg List.length h) (by simp)
    | cons k' keys' =>
      rw [List.flatMap_cons, List.flatMap_cons, append_eq_append (by simp)] at h
      rw [Vector.toList_inj.mp h.1, ih h.2]

theorem rotationParams_inj {threshold threshold' : UInt8} {keys keys' : List Bytes32}
    (h : rotationParams threshold keys = rotationParams threshold' keys') :
    threshold = threshold' ∧ keys = keys' := by
  simp (disch := simp) only [rotationParams, List.append_assoc, append_eq_append,
    List.cons.injEq, and_true] at h
  exact ⟨h.1, flatMap_toList_inj h.2.2⟩

theorem rebalancePolicyParams_inj {treasuries treasuries' : List Bytes32}
    (h : rebalancePolicyParams treasuries = rebalancePolicyParams treasuries') :
    treasuries = treasuries' := by
  simp (disch := simp) only [rebalancePolicyParams, append_eq_append] at h
  exact flatMap_toList_inj h.2

theorem cancelParams_inj {action action' : UInt8} {eta eta' : Int64}
    (h : cancelParams action eta = cancelParams action' eta') : action = action' ∧ eta = eta' := by
  simp (disch := simp) only [cancelParams, append_eq_append, List.cons.injEq, and_true,
    i64Bytes_inj] at h
  exact h

/-! ## All formats -/

/-- The six message formats are jointly injective and no message is a prefix of
a message of another format. The three parameter encodings are injective, for
lists of any length: the keys have a fixed width, so the count that precedes
them is not needed to read them back. -/
theorem formats_injective :
    Function.Injective Message.bytes ∧
    (∀ m m' : Message, m.family ≠ m'.family → ¬ m.bytes <+: m'.bytes) ∧
    (∀ threshold threshold' keys keys',
      rotationParams threshold keys = rotationParams threshold' keys' →
        threshold = threshold' ∧ keys = keys') ∧
    Function.Injective rebalancePolicyParams ∧
    (∀ action action' eta eta', cancelParams action eta = cancelParams action' eta' →
      action = action' ∧ eta = eta') :=
  ⟨Message.bytes_injective, fun _ _ => Message.not_prefix, fun _ _ _ _ => rotationParams_inj,
    fun _ _ => rebalancePolicyParams_inj, fun _ _ _ _ => cancelParams_inj⟩

end Shared
