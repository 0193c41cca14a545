-- SUMMARY: The accounts of the Solana program as the service reads them: the Borsh bytes the program writes, the decoders by offset, and that each decoder returns the fields that were written and refuses exactly the data that is too short.
import ReserveBridge.Solana.Accounts

/-!
# Account decoders

`service/src/solana/accounts.rs` reads the accounts of the program at constant
offsets. The layouts are those of the program's `state.rs`: a discriminator, the
fields one after the other as Borsh writes them, and zeros up to the allocated
size.
-/

namespace Service.SolanaAccounts
open Guard Bytes Solana

/-! ## Borsh -/

def u8Bytes (x : UInt8) : List UInt8 := [x]

def boolBytes (b : Bool) : List UInt8 := [if b then 1 else 0]

def optionBytes : Option Pubkey → List UInt8
  | none => u8Bytes 0
  | some key => u8Bytes 1 ++ key.toList

/-- A vector of keys: the count in 32 bits, then the keys. -/
def keysBytes (keys : List Pubkey) : List UInt8 :=
  leBytes 4 keys.length ++ keys.flatMap Vector.toList

def directionByte : Solana.Direction → UInt8
  | .goldcoinToSolana => 0
  | .solanaToGoldcoin => 1

def statusByte : WithdrawalStatus → UInt8
  | .pending => 0
  | .broadcast => 1
  | .completed => 2
  | .refunded => 3

@[simp] theorem length_u8Bytes (x : UInt8) : (u8Bytes x).length = 1 := by
  simp [u8Bytes]

@[simp] theorem length_boolBytes (b : Bool) : (boolBytes b).length = 1 := by
  simp [boolBytes]

@[simp] theorem length_i64Bytes (x : Int64) : (i64Bytes x).length = 8 := length_u64Bytes _

/-- The fields after `pending_admin`. -/
def bridgeConfigRest (c : BridgeConfig) : List UInt8 :=
  boolBytes c.paused ++ (boolBytes c.releasePaused ++ (boolBytes c.depositPaused ++
    (u8Bytes c.bump ++ (c.reserveTokenMint.toList ++ (c.reserveTokenProgram.toList ++
    (u8Bytes c.reserveAuthorityBump ++ (u64Bytes c.obligationCount ++
    (i64Bytes c.governanceTimelockSeconds ++ (u64Bytes c.minTransferAmount ++
    (u64Bytes c.perTransferLimit ++ (u64Bytes c.protectedMinimum ++
    (u64Bytes c.rollingVolumeLimit ++ (i64Bytes c.rollingWindowSeconds ++
    i64Bytes c.upgradeTimelockSeconds)))))))))))))

def bridgeConfigBytes (c : BridgeConfig) : List UInt8 :=
  u8Bytes c.protocolVersion ++ (c.admin.toList ++ (optionBytes c.pendingAdmin ++
    bridgeConfigRest c))

/-- Borsh has no bytes for a vector whose length does not fit in 32 bits. -/
def attestationKeySetBytes (s : AttestationKeySet) : Option (List UInt8) :=
  if s.keys.length < 2 ^ 32 then
    some (u64Bytes s.epoch ++ (u8Bytes s.threshold ++ (u8Bytes s.bump ++ (keysBytes s.keys ++
      s.reserved.toList))))
  else none

def withdrawalObligationBytes (o : WithdrawalObligation) : List UInt8 :=
  u64Bytes o.index ++ (u64Bytes o.amount ++ (o.requester.toList ++ (o.glcAddress.toList ++
    (u8Bytes o.glcAddressLen ++ (u8Bytes (statusByte o.status) ++ (u64Bytes o.requestedAtSlot ++
    (u8Bytes o.protocolVersion ++ (u8Bytes o.bump ++ o.reserved.toList))))))))

def depositClaimBytes (c : DepositClaim) : List UInt8 :=
  c.txid.toList ++ (u32Bytes c.vout ++ (u64Bytes c.amount ++ (c.recipient.toList ++
    (u64Bytes c.attestationEpoch ++ (u8Bytes c.protocolVersion ++ (u64Bytes c.slotCreated ++
    (u8Bytes c.bump ++ c.reserved.toList)))))))

def rollingVolumeWindowBytes (w : RollingVolumeWindow) : List UInt8 :=
  u8Bytes (directionByte w.direction) ++ (i64Bytes w.windowStart ++ (u64Bytes w.windowTotal ++
    (u8Bytes w.bump ++ w.reserved.toList)))

def rebalancePolicyBytes (p : RebalancePolicy) : List UInt8 :=
  u64Bytes p.version ++ (u8Bytes p.bump ++ (u8Bytes p.treasuryCount ++
    (p.treasuries.toList.flatMap Vector.toList ++ p.reserved.toList)))

def pendingRebalancePolicyBytes (p : PendingRebalancePolicy) : List UInt8 :=
  u64Bytes p.proposedUnderEpoch ++ (i64Bytes p.eta ++ (u8Bytes p.treasuryCount ++
    (p.treasuries.toList.flatMap Vector.toList ++ (u8Bytes p.bump ++ p.reserved.toList))))

/-- An account's data: the discriminator, the value, and what follows it. -/
def accountData (discriminator : Vector UInt8 8) (value tail : List UInt8) : List UInt8 :=
  discriminator.toList ++ (value ++ tail)

/-! ## Reading -/

/-- 32 bytes as an array. -/
def bytes32 (bs : List UInt8) : Bytes32 := Vector.ofFn fun i => bs.getD i 0

/-- `data.get(DISCRIMINATOR_LEN..)`. -/
def accountBody (data : List UInt8) : Except String (List UInt8) :=
  orFail (if 8 ≤ data.length then some (data.drop 8) else none) "account shorter than discriminator"

def readU64 (data : List UInt8) (offset : ℕ) : Except String UInt64 := do
  let b ← orFail (slice data offset (offset + 8)) s!"truncated u64 at {offset}"
  return UInt64.ofNat (leValue b)

def readI64 (data : List UInt8) (offset : ℕ) : Except String Int64 := do
  let b ← orFail (slice data offset (offset + 8)) s!"truncated i64 at {offset}"
  return (UInt64.ofNat (leValue b)).toInt64

def readBool (data : List UInt8) (offset : ℕ) : Except String Bool := do
  let b ← orFail data[offset]? s!"truncated bool at {offset}"
  return b != 0

def readPubkey (data : List UInt8) (offset : ℕ) : Except String Pubkey := do
  let b ← orFail (slice data offset (offset + 32)) s!"truncated pubkey at {offset}"
  return bytes32 b

/-- Keys one after the other from an offset. -/
def readPubkeys (data : List UInt8) : ℕ → ℕ → Except String (List Pubkey)
  | _, 0 => return []
  | offset, count + 1 => do
    let key ← readPubkey data offset
    let keys ← readPubkeys data (offset + 32) count
    return key :: keys

/-- `chunks_exact(32)`, as keys. -/
def chunks : ℕ → List UInt8 → List Pubkey
  | 0, _ => []
  | count + 1, bs => bytes32 (bs.take 32) :: chunks count (bs.drop 32)

/-! ## The decoders -/

structure BridgeConfigSnapshot where
  paused : Bool
  releasePaused : Bool
  depositPaused : Bool
  reserveTokenMint : Pubkey
  reserveTokenProgram : Pubkey
  obligationCount : UInt64
  protectedMinimum : UInt64
  minTransferAmount : UInt64
  perTransferLimit : UInt64
  rollingVolumeLimit : UInt64
  rollingWindowSeconds : Int64
  deriving DecidableEq

/-- The fields after `pending_admin`, from their offset on. -/
def decodeBridgeConfigRest (body : List UInt8) (off : ℕ) :
    Except String BridgeConfigSnapshot := do
  let paused ← readBool body off
  let releasePaused ← readBool body (off + 1)
  let depositPaused ← readBool body (off + 2)
  -- then the bump
  let reserveTokenMint ← readPubkey body (off + 4)
  let reserveTokenProgram ← readPubkey body (off + 36)
  -- then `reserve_authority_bump`
  let obligationCount ← readU64 body (off + 69)
  -- then `governance_timelock_seconds`
  let minTransferAmount ← readU64 body (off + 85)
  let perTransferLimit ← readU64 body (off + 93)
  let protectedMinimum ← readU64 body (off + 101)
  let rollingVolumeLimit ← readU64 body (off + 109)
  let rollingWindowSeconds ← readI64 body (off + 117)
  return {
    paused := paused
    releasePaused := releasePaused
    depositPaused := depositPaused
    reserveTokenMint := reserveTokenMint
    reserveTokenProgram := reserveTokenProgram
    obligationCount := obligationCount
    protectedMinimum := protectedMinimum
    minTransferAmount := minTransferAmount
    perTransferLimit := perTransferLimit
    rollingVolumeLimit := rollingVolumeLimit
    rollingWindowSeconds := rollingWindowSeconds }

/-- The offset after `protocol_version`, `admin` and `pending_admin`, which takes
33 bytes or one. -/
def afterPendingAdmin (tag : UInt8) : ℕ := if tag ≠ 0 then 34 + 32 else 34

def decodeBridgeConfig (data : List UInt8) : Except String BridgeConfigSnapshot := do
  let body ← accountBody data
  let pendingAdminTag ← orFail body[33]? "truncated pending_admin tag"
  decodeBridgeConfigRest body (afterPendingAdmin pendingAdminTag)

structure RollingVolumeWindowSnapshot where
  direction : UInt8
  windowStart : Int64
  windowTotal : UInt64
  deriving DecidableEq

def decodeRollingVolumeWindow (data : List UInt8) : Except String RollingVolumeWindowSnapshot := do
  let body ← accountBody data
  let direction ← orFail body[0]? "truncated direction"
  let windowStart ← readI64 body 1
  let windowTotal ← readU64 body 9
  return ⟨direction, windowStart, windowTotal⟩

structure AttestationKeySetSnapshot where
  epoch : UInt64
  threshold : UInt8
  keys : List Pubkey
  deriving DecidableEq

def decodeAttestationKeySet (data : List UInt8) : Except String AttestationKeySetSnapshot := do
  let body ← accountBody data
  let epoch ← readU64 body 0
  let threshold ← orFail body[8]? "truncated threshold"
  let lenBytes ← orFail (slice body 10 14) "truncated keys length"
  let keyCount := leValue lenBytes
  require (keyCount * 32 < 2 ^ 64) "key count overflow"
  require (14 + keyCount * 32 < 2 ^ 64) "key range overflow"
  let keysBytes ← orFail (slice body 14 (14 + keyCount * 32)) "truncated keys"
  return ⟨epoch, threshold, chunks keyCount keysBytes⟩

/-- `WITHDRAWAL_STATUS_COMPLETED`. -/
def withdrawalStatusCompleted : UInt8 := 2

structure WithdrawalObligationSnapshot where
  index : UInt64
  amount : UInt64
  requester : Pubkey
  glcAddress : List UInt8
  status : UInt8
  deriving DecidableEq

/-- A length above 64 is read as 64. -/
def decodeWithdrawalObligation (data : List UInt8) :
    Except String WithdrawalObligationSnapshot := do
  let body ← accountBody data
  let index ← readU64 body 0
  let amount ← readU64 body 8
  let requester ← readPubkey body 16
  let glcAddressFull ← orFail (slice body 48 112) "truncated glc_address"
  let glcAddressLen ← orFail body[112]? "truncated glc_address_len"
  let status ← orFail body[113]? "truncated status"
  return ⟨index, amount, requester, glcAddressFull.take (min glcAddressLen.toNat 64), status⟩

def decodeObligationPayoutRecord (data : List UInt8) :
    Except String (Option (Bytes32 × UInt64)) := do
  let body ← accountBody data
  let status ← orFail body[113]? "truncated status"
  if status ≠ withdrawalStatusCompleted then
    return none
  let reserved ← orFail (slice body 124 164) "truncated payout record"
  return some (bytes32 (reserved.take 32), UInt64.ofNat (leValue (reserved.drop 32)))

structure DepositClaimSnapshot where
  txid : Bytes32
  vout : UInt32
  amount : UInt64
  recipient : Pubkey
  attestationEpoch : UInt64
  slotCreated : UInt64
  deriving DecidableEq

def decodeDepositClaim (data : List UInt8) : Except String DepositClaimSnapshot := do
  let body ← accountBody data
  let txid ← orFail (slice body 0 32) "truncated claim txid"
  let vout ← orFail (slice body 32 36) "truncated claim vout"
  let amount ← readU64 body 36
  let recipient ← readPubkey body 44
  let attestationEpoch ← readU64 body 76
  let slotCreated ← readU64 body 85
  return ⟨bytes32 txid, UInt32.ofNat (leValue vout), amount, recipient, attestationEpoch,
    slotCreated⟩

structure RebalancePolicySnapshot where
  version : UInt64
  treasuries : List Pubkey
  deriving DecidableEq

def decodeRebalancePolicy (data : List UInt8) : Except String RebalancePolicySnapshot := do
  let body ← accountBody data
  let version ← readU64 body 0
  let treasuryCount ← orFail body[9]? "truncated treasury_count"
  require (treasuryCount.toNat ≤ maxTreasuryDestinations)
    s!"treasury_count {treasuryCount.toNat} exceeds MAX_TREASURY_DESTINATIONS {maxTreasuryDestinations}"
  let treasuries ← readPubkeys body 10 treasuryCount.toNat
  return ⟨version, treasuries⟩

structure PendingRebalancePolicySnapshot where
  proposedUnderEpoch : UInt64
  eta : Int64
  treasuries : List Pubkey
  deriving DecidableEq

def decodePendingRebalancePolicy (data : List UInt8) :
    Except String PendingRebalancePolicySnapshot := do
  let body ← accountBody data
  let proposedUnderEpoch ← readU64 body 0
  let eta ← readU64 body 8
  let treasuryCount ← orFail body[16]? "truncated treasury_count"
  require (treasuryCount.toNat ≤ maxTreasuryDestinations)
    s!"pending treasury_count {treasuryCount.toNat} exceeds MAX_TREASURY_DESTINATIONS {maxTreasuryDestinations}"
  let treasuries ← readPubkeys body 17 treasuryCount.toNat
  return ⟨proposedUnderEpoch, eta.toInt64, treasuries⟩

/-! ## Reading what was written -/

section Reading

variable {d : List UInt8} {off : ℕ}

@[simp] theorem bytes32_toList (key : Bytes32) : bytes32 key.toList = key := by
  ext i hi
  simp [bytes32]

theorem accountBody_accountData (discriminator : Vector UInt8 8) (value tail : List UInt8) :
    accountBody (accountData discriminator value tail) = .ok (value ++ tail) := by
  have hlen : 8 ≤ (accountData discriminator value tail).length := by
    simp only [accountData, List.length_append, Vector.length_toList]
    omega
  have hdrop : (accountData discriminator value tail).drop 8 = value ++ tail := by
    rw [accountData, List.drop_append_of_le_length (by simp), List.drop_of_length_le (by simp),
      List.nil_append]
  rw [accountBody, if_pos hlen, hdrop]
  rfl

theorem getElem?_of_at {x : UInt8} (h : At d off (u8Bytes x)) : d[off]? = some x := by
  simpa [u8Bytes] using h.getElem? (k := 0) (by simp)

theorem slice_of_at {bs : List UInt8} {n : ℕ} (h : At d off bs) (hn : n = off + bs.length) :
    slice d off n = some bs :=
  hn ▸ h.slice

theorem readU64_of_at {x : UInt64} (h : At d off (u64Bytes x)) : readU64 d off = .ok x := by
  rw [readU64, slice_of_at h (by simp)]
  simp [orFail, leValue_u64Bytes]

theorem readI64_of_at {x : Int64} (h : At d off (i64Bytes x)) : readI64 d off = .ok x := by
  have hvalue : UInt64.ofNat (leValue (i64Bytes x)) = x.toUInt64 := by
    rw [i64Bytes, leValue_u64Bytes, UInt64.ofNat_toNat]
  rw [readI64, slice_of_at h (by simp)]
  simp only [orFail, bind, Except.bind, hvalue]
  rfl

theorem readBool_of_at {b : Bool} (h : At d off (boolBytes b)) : readBool d off = .ok b := by
  have hbyte : d[off]? = some (if b then 1 else 0) := getElem?_of_at h
  rw [readBool, hbyte]
  cases b <;> rfl

theorem readPubkey_of_at {key : Pubkey} (h : At d off key.toList) : readPubkey d off = .ok key := by
  rw [readPubkey, slice_of_at h (by simp)]
  simp [orFail]

theorem readPubkeys_of_at {keys : List Pubkey} (h : At d off (keys.flatMap Vector.toList)) :
    readPubkeys d off keys.length = .ok keys := by
  induction keys generalizing off with
  | nil => rfl
  | cons key keys ih =>
    rw [List.flatMap_cons] at h
    have htail := h.right
    rw [Vector.length_toList] at htail
    rw [List.length_cons, readPubkeys, readPubkey_of_at h.left, ih htail]
    rfl

theorem chunks_flatMap (keys : List Pubkey) :
    chunks keys.length (keys.flatMap Vector.toList) = keys := by
  induction keys with
  | nil => rfl
  | cons key keys ih =>
    have htake : (key.toList ++ keys.flatMap Vector.toList).take 32 = key.toList := by
      rw [List.take_append_of_le_length (by simp), List.take_of_length_le (by simp)]
    have hdrop : (key.toList ++ keys.flatMap Vector.toList).drop 32 = keys.flatMap Vector.toList := by
      rw [List.drop_append_of_le_length (by simp), List.drop_of_length_le (by simp),
        List.nil_append]
    rw [List.length_cons, List.flatMap_cons, chunks, htake, hdrop, bytes32_toList, ih]

end Reading

section RoundTrip

variable (discriminator : Vector UInt8 8) (tail : List UInt8)

theorem decodeDepositClaim_accountData (c : DepositClaim) :
    decodeDepositClaim (accountData discriminator (depositClaimBytes c) tail) =
      .ok ⟨c.txid, c.vout, c.amount, c.recipient, c.attestationEpoch, c.slotCreated⟩ := by
  rw [decodeDepositClaim, accountBody_accountData]
  simp only [depositClaimBytes, List.append_assoc]
  generalize hd : c.txid.toList ++ _ = d
  have htxid : slice d 0 32 = some c.txid.toList :=
    slice_of_at (by rw [← hd]; simp) (by simp)
  have hvout : slice d 32 36 = some (u32Bytes c.vout) :=
    slice_of_at (by rw [← hd]; simp) (by simp)
  have hamount : readU64 d 36 = .ok c.amount := readU64_of_at (by rw [← hd]; simp)
  have hrecipient : readPubkey d 44 = .ok c.recipient := readPubkey_of_at (by rw [← hd]; simp)
  have hepoch : readU64 d 76 = .ok c.attestationEpoch := readU64_of_at (by rw [← hd]; simp)
  have hslot : readU64 d 85 = .ok c.slotCreated := readU64_of_at (by rw [← hd]; simp)
  simp [htxid, hvout, hamount, hrecipient, hepoch, hslot, orFail, u32Bytes, leValue_leBytes]

theorem decodeRollingVolumeWindow_accountData (w : RollingVolumeWindow) :
    decodeRollingVolumeWindow (accountData discriminator (rollingVolumeWindowBytes w) tail) =
      .ok ⟨directionByte w.direction, w.windowStart, w.windowTotal⟩ := by
  rw [decodeRollingVolumeWindow, accountBody_accountData]
  simp only [rollingVolumeWindowBytes, List.append_assoc]
  generalize hd : u8Bytes (directionByte w.direction) ++ _ = d
  have hdirection : d[0]? = some (directionByte w.direction) :=
    getElem?_of_at (by rw [← hd]; simp)
  have hstart : readI64 d 1 = .ok w.windowStart := readI64_of_at (by rw [← hd]; simp)
  have htotal : readU64 d 9 = .ok w.windowTotal := readU64_of_at (by rw [← hd]; simp)
  simp [hdirection, hstart, htotal, orFail]

/-- The fields of the configuration that the service reads. -/
def bridgeConfigSnapshot (c : BridgeConfig) : BridgeConfigSnapshot where
  paused := c.paused
  releasePaused := c.releasePaused
  depositPaused := c.depositPaused
  reserveTokenMint := c.reserveTokenMint
  reserveTokenProgram := c.reserveTokenProgram
  obligationCount := c.obligationCount
  protectedMinimum := c.protectedMinimum
  minTransferAmount := c.minTransferAmount
  perTransferLimit := c.perTransferLimit
  rollingVolumeLimit := c.rollingVolumeLimit
  rollingWindowSeconds := c.rollingWindowSeconds

theorem decodeBridgeConfigRest_of_at {c : BridgeConfig} {d : List UInt8} {off : ℕ}
    (h : At d off (bridgeConfigRest c)) :
    decodeBridgeConfigRest d off = .ok (bridgeConfigSnapshot c) := by
  have hpaused : readBool d off = .ok c.paused :=
    readBool_of_at (h.trans (k := 0) (by simp [bridgeConfigRest]))
  have hrelease : readBool d (off + 1) = .ok c.releasePaused :=
    readBool_of_at (h.trans (by simp [bridgeConfigRest]))
  have hdeposit : readBool d (off + 2) = .ok c.depositPaused :=
    readBool_of_at (h.trans (by simp [bridgeConfigRest]))
  have hmint : readPubkey d (off + 4) = .ok c.reserveTokenMint :=
    readPubkey_of_at (h.trans (by simp [bridgeConfigRest]))
  have hprogram : readPubkey d (off + 36) = .ok c.reserveTokenProgram :=
    readPubkey_of_at (h.trans (by simp [bridgeConfigRest]))
  have hcount : readU64 d (off + 69) = .ok c.obligationCount :=
    readU64_of_at (h.trans (by simp [bridgeConfigRest]))
  have hmin : readU64 d (off + 85) = .ok c.minTransferAmount :=
    readU64_of_at (h.trans (by simp [bridgeConfigRest]))
  have hlimit : readU64 d (off + 93) = .ok c.perTransferLimit :=
    readU64_of_at (h.trans (by simp [bridgeConfigRest]))
  have hprotected : readU64 d (off + 101) = .ok c.protectedMinimum :=
    readU64_of_at (h.trans (by simp [bridgeConfigRest]))
  have hvolume : readU64 d (off + 109) = .ok c.rollingVolumeLimit :=
    readU64_of_at (h.trans (by simp [bridgeConfigRest]))
  have hwindow : readI64 d (off + 117) = .ok c.rollingWindowSeconds :=
    readI64_of_at (h.trans (by simp [bridgeConfigRest]))
  simp [decodeBridgeConfigRest, bridgeConfigSnapshot, hpaused, hrelease, hdeposit, hmint, hprogram,
    hcount, hmin, hlimit, hprotected, hvolume, hwindow]

theorem decodeBridgeConfig_accountData (c : BridgeConfig) :
    decodeBridgeConfig (accountData discriminator (bridgeConfigBytes c) tail) =
      .ok (bridgeConfigSnapshot c) := by
  rw [decodeBridgeConfig, accountBody_accountData]
  simp only [bridgeConfigBytes, List.append_assoc]
  generalize hd : u8Bytes c.protocolVersion ++ _ = d
  cases hpending : c.pendingAdmin with
  | none =>
    rw [hpending, optionBytes] at hd
    have htag : d[33]? = some 0 := getElem?_of_at (by rw [← hd]; simp)
    have hrest : At d 34 (bridgeConfigRest c) := by
      rw [← hd]
      simp
    simp [htag, orFail, afterPendingAdmin, decodeBridgeConfigRest_of_at hrest]
  | some admin =>
    rw [hpending, optionBytes, List.append_assoc] at hd
    have htag : d[33]? = some 1 := getElem?_of_at (by rw [← hd]; simp)
    have hrest : At d 66 (bridgeConfigRest c) := by
      rw [← hd]
      simp
    simp [htag, orFail, afterPendingAdmin, decodeBridgeConfigRest_of_at hrest]

theorem decodeAttestationKeySet_accountData (s : AttestationKeySet) (bytes : List UInt8)
    (hbytes : attestationKeySetBytes s = some bytes) :
    decodeAttestationKeySet (accountData discriminator bytes tail) =
      .ok ⟨s.epoch, s.threshold, s.keys⟩ := by
  unfold attestationKeySetBytes at hbytes
  split_ifs at hbytes with hcount
  obtain rfl := Option.some.inj hbytes
  rw [decodeAttestationKeySet, accountBody_accountData]
  simp only [keysBytes, List.append_assoc]
  generalize hd : u64Bytes s.epoch ++ _ = d
  have hlen : (s.keys.flatMap Vector.toList).length = s.keys.length * 32 := by
    rw [List.length_flatMap]
    simp
  have hvalue : leValue (leBytes 4 s.keys.length) = s.keys.length := by
    rw [leValue_leBytes]
    exact Nat.mod_eq_of_lt hcount
  have hepoch : readU64 d 0 = .ok s.epoch := readU64_of_at (by rw [← hd]; simp)
  have hthreshold : d[8]? = some s.threshold := getElem?_of_at (by rw [← hd]; simp)
  have hkeyCount : slice d 10 14 = some (leBytes 4 s.keys.length) :=
    slice_of_at (by rw [← hd]; simp) (by simp)
  have hkeys : slice d 14 (14 + s.keys.length * 32) = some (s.keys.flatMap Vector.toList) :=
    slice_of_at (by rw [← hd]; simp) (by rw [hlen])
  simp [hepoch, hthreshold, hkeyCount, hvalue, hkeys, orFail, chunks_flatMap]
  -- the count has 32 bits, so neither bound is reached
  omega

theorem decodeWithdrawalObligation_accountData (o : WithdrawalObligation) :
    decodeWithdrawalObligation (accountData discriminator (withdrawalObligationBytes o) tail) =
      .ok ⟨o.index, o.amount, o.requester, o.glcAddress.toList.take o.glcAddressLen.toNat,
        statusByte o.status⟩ := by
  rw [decodeWithdrawalObligation, accountBody_accountData]
  simp only [withdrawalObligationBytes, List.append_assoc]
  generalize hd : u64Bytes o.index ++ _ = d
  have hindex : readU64 d 0 = .ok o.index := readU64_of_at (by rw [← hd]; simp)
  have hamount : readU64 d 8 = .ok o.amount := readU64_of_at (by rw [← hd]; simp)
  have hrequester : readPubkey d 16 = .ok o.requester := readPubkey_of_at (by rw [← hd]; simp)
  have haddress : slice d 48 112 = some o.glcAddress.toList :=
    slice_of_at (by rw [← hd]; simp) (by simp)
  have haddressLen : d[112]? = some o.glcAddressLen := getElem?_of_at (by rw [← hd]; simp)
  have hstatus : d[113]? = some (statusByte o.status) := getElem?_of_at (by rw [← hd]; simp)
  -- the array has 64 bytes, so a longer length takes all of it
  have htake : o.glcAddress.toList.take (min o.glcAddressLen.toNat 64) =
      o.glcAddress.toList.take o.glcAddressLen.toNat := by
    rw [List.take_eq_take_iff, Vector.length_toList, min_assoc, min_self]
  simp [hindex, hamount, hrequester, haddress, haddressLen, hstatus, htake, orFail]

theorem statusByte_eq_completed {status : WithdrawalStatus} :
    statusByte status = withdrawalStatusCompleted ↔ status = .completed := by
  cases status <;> decide

theorem decodeObligationPayoutRecord_accountData (o : WithdrawalObligation) :
    decodeObligationPayoutRecord (accountData discriminator (withdrawalObligationBytes o) tail) =
      .ok o.payoutRecord := by
  rw [decodeObligationPayoutRecord, accountBody_accountData]
  simp only [withdrawalObligationBytes, List.append_assoc]
  generalize hd : u64Bytes o.index ++ _ = d
  have hstatus : d[113]? = some (statusByte o.status) := getElem?_of_at (by rw [← hd]; simp)
  by_cases hcompleted : o.status = .completed
  · have hreserved : At d 124 (o.reserved.toList.take 40 ++ o.reserved.toList.drop 40) := by
      rw [List.take_append_drop, ← hd]
      simp
    have hrecord : slice d 124 164 = some (o.reserved.toList.take 40) :=
      slice_of_at hreserved.left (by simp)
    have htxid : bytes32 ((o.reserved.toList.take 40).take 32) =
        Vector.ofFn fun i => o.reserved.toList.getD (WithdrawalObligation.payoutTxidOffset + i) 0 := by
      ext i hi
      have hi' : i < 48 := by omega
      simp [bytes32, WithdrawalObligation.payoutTxidOffset, List.getD_eq_getElem?_getD, hi']
    have hheight : (o.reserved.toList.take 40).drop 32 =
        (o.reserved.toList.drop WithdrawalObligation.payoutHeightOffset).take 8 := by
      rw [List.drop_take]
      rfl
    simp [hstatus, statusByte_eq_completed, hcompleted, hrecord, orFail, htxid, hheight,
      WithdrawalObligation.payoutRecord]
  · simp [hstatus, statusByte_eq_completed, hcompleted, orFail, WithdrawalObligation.payoutRecord]

theorem readTreasuries_of_at {d : List UInt8} {off : ℕ} {count : UInt8}
    {treasuries : Vector Pubkey 4} (hcount : count.toNat ≤ maxTreasuryDestinations)
    (h : At d off (treasuries.toList.flatMap Vector.toList)) :
    readPubkeys d off count.toNat = .ok (listedTreasuries count treasuries) := by
  have hmin : min count.toNat maxTreasuryDestinations = count.toNat := min_eq_left hcount
  have hlen : (treasuries.toList.take count.toNat).length = count.toNat := by
    rw [List.length_take, Vector.length_toList]
    exact min_eq_left hcount
  rw [← List.take_append_drop count.toNat treasuries.toList, List.flatMap_append] at h
  have hread := readPubkeys_of_at h.left
  rw [hlen] at hread
  rw [hread, listedTreasuries, hmin]

theorem decodeRebalancePolicy_accountData (p : RebalancePolicy)
    (hcount : p.treasuryCount.toNat ≤ maxTreasuryDestinations) :
    decodeRebalancePolicy (accountData discriminator (rebalancePolicyBytes p) tail) =
      .ok ⟨p.version, listedTreasuries p.treasuryCount p.treasuries⟩ := by
  rw [decodeRebalancePolicy, accountBody_accountData]
  simp only [rebalancePolicyBytes, List.append_assoc]
  generalize hd : u64Bytes p.version ++ _ = d
  have hversion : readU64 d 0 = .ok p.version := readU64_of_at (by rw [← hd]; simp)
  have htreasuryCount : d[9]? = some p.treasuryCount := getElem?_of_at (by rw [← hd]; simp)
  have htreasuries : readPubkeys d 10 p.treasuryCount.toNat =
      .ok (listedTreasuries p.treasuryCount p.treasuries) :=
    readTreasuries_of_at hcount (by rw [← hd]; simp)
  simp [hversion, htreasuryCount, htreasuries, hcount, orFail, require]

theorem decodePendingRebalancePolicy_accountData (p : PendingRebalancePolicy)
    (hcount : p.treasuryCount.toNat ≤ maxTreasuryDestinations) :
    decodePendingRebalancePolicy (accountData discriminator (pendingRebalancePolicyBytes p) tail) =
      .ok ⟨p.proposedUnderEpoch, p.eta, listedTreasuries p.treasuryCount p.treasuries⟩ := by
  rw [decodePendingRebalancePolicy, accountBody_accountData]
  simp only [pendingRebalancePolicyBytes, List.append_assoc]
  generalize hd : u64Bytes p.proposedUnderEpoch ++ _ = d
  have hepoch : readU64 d 0 = .ok p.proposedUnderEpoch := readU64_of_at (by rw [← hd]; simp)
  have heta : readU64 d 8 = .ok p.eta.toUInt64 := readU64_of_at (by rw [← hd]; simp [i64Bytes])
  have htreasuryCount : d[16]? = some p.treasuryCount := getElem?_of_at (by rw [← hd]; simp)
  have htreasuries : readPubkeys d 17 p.treasuryCount.toNat =
      .ok (listedTreasuries p.treasuryCount p.treasuries) :=
    readTreasuries_of_at hcount (by rw [← hd]; simp)
  simp [hepoch, heta, htreasuryCount, htreasuries, hcount, orFail, require]

end RoundTrip

/-! ## Data that is too short -/

section Short

variable {d : List UInt8} {off : ℕ}

theorem exists_slice {lo hi : ℕ} : (∃ bs, slice d lo hi = some bs) ↔ lo ≤ hi ∧ hi ≤ d.length := by
  unfold slice
  split_ifs with h <;> simp [h]

theorem exists_getElem? : (∃ b, d[off]? = some b) ↔ off + 1 ≤ d.length := by
  rw [← Option.isSome_iff_exists, isSome_getElem?]
  rfl

theorem exists_readU64 : (∃ x, readU64 d off = .ok x) ↔ off + 8 ≤ d.length := by
  change Succeeds (readU64 d off) ↔ _
  simp only [readU64, succeeds_bind, orFail_eq_ok, succeeds_pure, and_true, exists_slice]
  omega

theorem exists_readI64 : (∃ x, readI64 d off = .ok x) ↔ off + 8 ≤ d.length := by
  change Succeeds (readI64 d off) ↔ _
  simp only [readI64, succeeds_bind, orFail_eq_ok, succeeds_pure, and_true, exists_slice]
  omega

theorem exists_readBool : (∃ b, readBool d off = .ok b) ↔ off + 1 ≤ d.length := by
  change Succeeds (readBool d off) ↔ _
  simp only [readBool, succeeds_bind, orFail_eq_ok, succeeds_pure, and_true, exists_getElem?]

theorem exists_readPubkey : (∃ key, readPubkey d off = .ok key) ↔ off + 32 ≤ d.length := by
  change Succeeds (readPubkey d off) ↔ _
  simp only [readPubkey, succeeds_bind, orFail_eq_ok, succeeds_pure, and_true, exists_slice]
  omega

theorem exists_readPubkeys {count : ℕ} (h : off ≤ d.length) :
    (∃ keys, readPubkeys d off count = .ok keys) ↔ off + 32 * count ≤ d.length := by
  induction count generalizing off with
  | zero => simp [readPubkeys, h]
  | succ count ih =>
    change Succeeds (readPubkeys d off (count + 1)) ↔ _
    simp only [readPubkeys, succeeds_bind, succeeds_pure, and_true, exists_and_right,
      exists_readPubkey]
    by_cases hkey : off + 32 ≤ d.length
    · rw [ih hkey, and_iff_right hkey]
      constructor <;> intro hle <;> omega
    · exact iff_of_false (fun hread => hkey hread.1) (by omega)

theorem accountBody_eq_ok {data body : List UInt8} :
    accountBody data = .ok body ↔ 8 ≤ data.length ∧ body = data.drop 8 := by
  rw [accountBody, orFail_eq_ok]
  split_ifs with h <;> simp [h, eq_comm]

/-! How many bytes each kind of data declares after its discriminator, up to the
last field that is read. -/

/-- With the byte of a `pending_admin`, or without one. -/
def bridgeConfigDeclares (body : List UInt8) : ℕ := afterPendingAdmin (body.getD 33 0) + 125

/-- With as many keys as the count says. -/
def attestationKeySetDeclares (body : List UInt8) : ℕ :=
  14 + 32 * leValue ((body.drop 10).take 4)

/-- With the record of a payout where the status says so. -/
def payoutRecordDeclares (body : List UInt8) : ℕ :=
  if body.getD 113 0 = withdrawalStatusCompleted then 164 else 114

/-- With as many treasuries as the count before them says. -/
def treasuriesDeclare (body : List UInt8) (count : ℕ) : ℕ :=
  count + 1 + 32 * (body.getD count 0).toNat

theorem succeeds_accountBody {α : Type} {data : List UInt8}
    {decode : List UInt8 → Except String α} :
    Succeeds (accountBody data >>= decode) ↔ 8 ≤ data.length ∧ Succeeds (decode (data.drop 8)) := by
  simp only [succeeds_bind, accountBody_eq_ok, and_assoc, exists_and_left, exists_eq_left]

theorem succeeds_decodeDepositClaim {data : List UInt8} :
    Succeeds (decodeDepositClaim data) ↔ 8 + 93 ≤ data.length := by
  rw [decodeDepositClaim, succeeds_accountBody]
  simp only [succeeds_bind, succeeds_pure, and_true, exists_and_right, orFail_eq_ok, exists_slice,
    exists_readU64, exists_readPubkey, List.length_drop]
  omega

theorem succeeds_decodeRollingVolumeWindow {data : List UInt8} :
    Succeeds (decodeRollingVolumeWindow data) ↔ 8 + 17 ≤ data.length := by
  rw [decodeRollingVolumeWindow, succeeds_accountBody]
  simp only [succeeds_bind, succeeds_pure, and_true, exists_and_right, orFail_eq_ok,
    exists_getElem?, exists_readU64, exists_readI64, List.length_drop]
  omega

theorem succeeds_decodeBridgeConfigRest :
    Succeeds (decodeBridgeConfigRest d off) ↔ off + 125 ≤ d.length := by
  simp only [decodeBridgeConfigRest, succeeds_bind, succeeds_pure, and_true, exists_and_right,
    exists_readBool, exists_readPubkey, exists_readU64, exists_readI64]
  omega

theorem afterPendingAdmin_ge (tag : UInt8) : 34 ≤ afterPendingAdmin tag := by
  unfold afterPendingAdmin
  split_ifs <;> omega

theorem succeeds_decodeBridgeConfig {data : List UInt8} :
    Succeeds (decodeBridgeConfig data) ↔
      8 + bridgeConfigDeclares (data.drop 8) ≤ data.length := by
  rw [decodeBridgeConfig, succeeds_accountBody]
  simp only [succeeds_bind, orFail_eq_ok, succeeds_decodeBridgeConfigRest, bridgeConfigDeclares]
  cases htag : (data.drop 8)[33]? with
  | none =>
    have hshort := List.getElem?_eq_none_iff.mp htag
    have hge := afterPendingAdmin_ge ((data.drop 8).getD 33 0)
    rw [List.length_drop] at hshort
    constructor
    · rintro ⟨-, tag, htag', -⟩
      cases htag'
    · intro hle
      omega
  | some tag =>
    have hget : (data.drop 8).getD 33 0 = tag := by
      rw [List.getD_eq_getElem?_getD, htag]
      rfl
    simp only [Option.some.injEq, exists_eq_left', hget, List.length_drop]
    omega

theorem succeeds_decodeAttestationKeySet {data : List UInt8} :
    Succeeds (decodeAttestationKeySet data) ↔
      8 + attestationKeySetDeclares (data.drop 8) ≤ data.length := by
  rw [decodeAttestationKeySet, succeeds_accountBody]
  simp only [succeeds_bind, succeeds_pure, and_true, exists_and_right, orFail_eq_ok,
    require_eq_ok, exists_unit, exists_readU64, exists_getElem?, attestationKeySetDeclares]
  cases hcount : slice (data.drop 8) 10 14 with
  | none =>
    have hshort : data.length < 8 + 14 := by
      by_contra hlen
      obtain ⟨bs, hbs⟩ := exists_slice.mpr
        ⟨(by omega : 10 ≤ 14), (by simp; omega : 14 ≤ (data.drop 8).length)⟩
      rw [hcount] at hbs
      cases hbs
    constructor
    · rintro ⟨-, -, -, bs, hbs, -⟩
      cases hbs
    · intro hle
      omega
  | some bs =>
    have hlen := (exists_slice.mp ⟨bs, hcount⟩).2
    have hbs : bs = ((data.drop 8).drop 10).take 4 := by
      unfold slice at hcount
      split_ifs at hcount
      exact (Option.some.inj hcount).symm
    have hlt : leValue bs < 2 ^ 32 := by
      have hbound := leValue_lt bs
      have hsize : bs.length = 4 := by
        rw [hbs]
        simp only [List.length_take, List.length_drop] at hlen ⊢
        omega
      rwa [hsize] at hbound
    simp only [Option.some.injEq, exists_eq_left', ← hbs, exists_slice, List.length_drop] at hlen ⊢
    omega

theorem succeeds_decodeWithdrawalObligation {data : List UInt8} :
    Succeeds (decodeWithdrawalObligation data) ↔ 8 + 114 ≤ data.length := by
  rw [decodeWithdrawalObligation, succeeds_accountBody]
  simp only [succeeds_bind, succeeds_pure, and_true, exists_and_right, orFail_eq_ok, exists_slice,
    exists_getElem?, exists_readU64, exists_readPubkey, List.length_drop]
  omega

theorem succeeds_decodeObligationPayoutRecord {data : List UInt8} :
    Succeeds (decodeObligationPayoutRecord data) ↔
      8 + payoutRecordDeclares (data.drop 8) ≤ data.length := by
  rw [decodeObligationPayoutRecord, succeeds_accountBody]
  simp only [succeeds_bind, orFail_eq_ok, payoutRecordDeclares]
  cases hstatus : (data.drop 8)[113]? with
  | none =>
    have hshort := List.getElem?_eq_none_iff.mp hstatus
    rw [List.length_drop] at hshort
    constructor
    · rintro ⟨-, status, hstatus', -⟩
      cases hstatus'
    · intro hle
      split_ifs at hle <;> omega
  | some status =>
    have hget : (data.drop 8).getD 113 0 = status := by
      rw [List.getD_eq_getElem?_getD, hstatus]
      rfl
    have hlen := exists_getElem?.mp ⟨status, hstatus⟩
    simp only [Option.some.injEq, exists_eq_left', hget]
    by_cases hcompleted : status = withdrawalStatusCompleted
    · simp only [hcompleted, ne_eq, not_true_eq_false, if_true, if_false, succeeds_bind,
        succeeds_pure, orFail_eq_ok, and_true, exists_slice, List.length_drop] at hlen ⊢
      omega
    · simp only [hcompleted, ne_eq, not_false_eq_true, if_true, if_false, succeeds_pure, and_true,
        List.length_drop] at hlen ⊢
      omega

/-- The reading of a count and of the treasuries after it. -/
theorem exists_readTreasuries {count : ℕ} :
    (∃ n, d[count]? = some n ∧ n.toNat ≤ maxTreasuryDestinations ∧
        ∃ keys, readPubkeys d (count + 1) n.toNat = .ok keys) ↔
      treasuriesDeclare d count ≤ d.length ∧
        (d.getD count 0).toNat ≤ maxTreasuryDestinations := by
  unfold treasuriesDeclare
  cases hcount : d[count]? with
  | none =>
    have hshort := List.getElem?_eq_none_iff.mp hcount
    constructor
    · rintro ⟨n, hn, -⟩
      cases hn
    · intro hle
      omega
  | some n =>
    have hget : d.getD count 0 = n := by
      rw [List.getD_eq_getElem?_getD, hcount]
      rfl
    have hlen := exists_getElem?.mp ⟨n, hcount⟩
    simp only [Option.some.injEq, exists_eq_left', hget, exists_readPubkeys hlen]
    rw [and_comm]

theorem succeeds_decodeRebalancePolicy {data : List UInt8} :
    Succeeds (decodeRebalancePolicy data) ↔
      8 + treasuriesDeclare (data.drop 8) 9 ≤ data.length ∧
        ((data.drop 8).getD 9 0).toNat ≤ maxTreasuryDestinations := by
  rw [decodeRebalancePolicy, succeeds_accountBody]
  simp only [succeeds_bind, succeeds_pure, and_true, exists_and_right, orFail_eq_ok, require_eq_ok,
    exists_unit, exists_readU64]
  rw [exists_readTreasuries, List.length_drop, treasuriesDeclare]
  omega

theorem succeeds_decodePendingRebalancePolicy {data : List UInt8} :
    Succeeds (decodePendingRebalancePolicy data) ↔
      8 + treasuriesDeclare (data.drop 8) 16 ≤ data.length ∧
        ((data.drop 8).getD 16 0).toNat ≤ maxTreasuryDestinations := by
  rw [decodePendingRebalancePolicy, succeeds_accountBody]
  simp only [succeeds_bind, succeeds_pure, and_true, exists_and_right, orFail_eq_ok, require_eq_ok,
    exists_unit, exists_readU64]
  rw [exists_readTreasuries, List.length_drop, treasuriesDeclare]
  omega

end Short

/-! ## Agreement with the layouts -/

theorem refused_iff {α : Type} {x : Except String α} {p : Prop} (h : Succeeds x ↔ p) :
    (∃ e, x = .error e) ↔ ¬ p := by
  rw [← not_succeeds, h]

/-- For every value of an account and whatever follows it, each decoder returns
the fields of the value, and each decoder refuses exactly the data that ends
before the last field it declares. -/
theorem decoders_agree :
    (∀ (discriminator : Vector UInt8 8) (tail : List UInt8),
      (∀ c : BridgeConfig,
        decodeBridgeConfig (accountData discriminator (bridgeConfigBytes c) tail) =
          .ok (bridgeConfigSnapshot c)) ∧
      (∀ (s : AttestationKeySet) (bytes : List UInt8), attestationKeySetBytes s = some bytes →
        decodeAttestationKeySet (accountData discriminator bytes tail) =
          .ok ⟨s.epoch, s.threshold, s.keys⟩) ∧
      (∀ o : WithdrawalObligation,
        decodeWithdrawalObligation (accountData discriminator (withdrawalObligationBytes o) tail) =
          .ok ⟨o.index, o.amount, o.requester, o.glcAddress.toList.take o.glcAddressLen.toNat,
            statusByte o.status⟩ ∧
        decodeObligationPayoutRecord
            (accountData discriminator (withdrawalObligationBytes o) tail) =
          .ok o.payoutRecord) ∧
      (∀ c : DepositClaim,
        decodeDepositClaim (accountData discriminator (depositClaimBytes c) tail) =
          .ok ⟨c.txid, c.vout, c.amount, c.recipient, c.attestationEpoch, c.slotCreated⟩) ∧
      (∀ w : RollingVolumeWindow,
        decodeRollingVolumeWindow (accountData discriminator (rollingVolumeWindowBytes w) tail) =
          .ok ⟨directionByte w.direction, w.windowStart, w.windowTotal⟩) ∧
      (∀ p : RebalancePolicy, p.treasuryCount.toNat ≤ maxTreasuryDestinations →
        decodeRebalancePolicy (accountData discriminator (rebalancePolicyBytes p) tail) =
          .ok ⟨p.version, listedTreasuries p.treasuryCount p.treasuries⟩) ∧
      (∀ p : PendingRebalancePolicy, p.treasuryCount.toNat ≤ maxTreasuryDestinations →
        decodePendingRebalancePolicy
            (accountData discriminator (pendingRebalancePolicyBytes p) tail) =
          .ok ⟨p.proposedUnderEpoch, p.eta,
            listedTreasuries p.treasuryCount p.treasuries⟩)) ∧
    (∀ data : List UInt8,
      ((∃ e, decodeBridgeConfig data = .error e) ↔
        data.length < 8 + bridgeConfigDeclares (data.drop 8)) ∧
      ((∃ e, decodeAttestationKeySet data = .error e) ↔
        data.length < 8 + attestationKeySetDeclares (data.drop 8)) ∧
      ((∃ e, decodeWithdrawalObligation data = .error e) ↔ data.length < 8 + 114) ∧
      ((∃ e, decodeObligationPayoutRecord data = .error e) ↔
        data.length < 8 + payoutRecordDeclares (data.drop 8)) ∧
      ((∃ e, decodeDepositClaim data = .error e) ↔ data.length < 8 + 93) ∧
      ((∃ e, decodeRollingVolumeWindow data = .error e) ↔ data.length < 8 + 17) ∧
      ((∃ e, decodeRebalancePolicy data = .error e) ↔
        data.length < 8 + treasuriesDeclare (data.drop 8) 9 ∨
          maxTreasuryDestinations < ((data.drop 8).getD 9 0).toNat) ∧
      ((∃ e, decodePendingRebalancePolicy data = .error e) ↔
        data.length < 8 + treasuriesDeclare (data.drop 8) 16 ∨
          maxTreasuryDestinations < ((data.drop 8).getD 16 0).toNat)) := by
  constructor
  · intro discriminator tail
    refine ⟨?config, ?keySet, ?obligation, ?claim, ?window, ?policy, ?pending⟩
    case config =>
      intro c
      exact decodeBridgeConfig_accountData discriminator tail c
    case keySet =>
      intro s bytes hbytes
      exact decodeAttestationKeySet_accountData discriminator tail s bytes hbytes
    case obligation =>
      intro o
      exact ⟨decodeWithdrawalObligation_accountData discriminator tail o,
        decodeObligationPayoutRecord_accountData discriminator tail o⟩
    case claim =>
      intro c
      exact decodeDepositClaim_accountData discriminator tail c
    case window =>
      intro w
      exact decodeRollingVolumeWindow_accountData discriminator tail w
    case policy =>
      intro p hcount
      exact decodeRebalancePolicy_accountData discriminator tail p hcount
    case pending =>
      intro p hcount
      exact decodePendingRebalancePolicy_accountData discriminator tail p hcount
  · intro data
    refine ⟨?config, ?keySet, ?obligation, ?payout, ?claim, ?window, ?policy, ?pending⟩
    case config =>
      rw [refused_iff succeeds_decodeBridgeConfig, not_le]
    case keySet =>
      rw [refused_iff succeeds_decodeAttestationKeySet, not_le]
    case obligation =>
      rw [refused_iff succeeds_decodeWithdrawalObligation, not_le]
    case payout =>
      rw [refused_iff succeeds_decodeObligationPayoutRecord, not_le]
    case claim =>
      rw [refused_iff succeeds_decodeDepositClaim, not_le]
    case window =>
      rw [refused_iff succeeds_decodeRollingVolumeWindow, not_le]
    case policy =>
      rw [refused_iff succeeds_decodeRebalancePolicy, not_and_or, not_le, not_le]
    case pending =>
      rw [refused_iff succeeds_decodePendingRebalancePolicy, not_and_or, not_le, not_le]

/-- A policy that lists two of its four treasuries. -/
def samplePolicy (treasuryCount : UInt8) : RebalancePolicy where
  version := 3
  bump := 254
  treasuryCount := treasuryCount
  treasuries := #v[Vector.replicate 32 7, Vector.replicate 32 8, Vector.replicate 32 0,
    Vector.replicate 32 0]
  reserved := Vector.replicate 64 0

theorem decoders_agree_sample :
    (samplePolicy 2).treasuryCount.toNat ≤ maxTreasuryDestinations ∧
      decodeRebalancePolicy (accountData (Vector.replicate 8 9) (rebalancePolicyBytes
          (samplePolicy 2)) (List.replicate 100 0)) =
        .ok ⟨3, [Vector.replicate 32 7, Vector.replicate 32 8]⟩ := by
  have hcount : (samplePolicy 2).treasuryCount.toNat ≤ maxTreasuryDestinations := by
    decide +kernel
  have hdecode := (decoders_agree.1 (Vector.replicate 8 9) (List.replicate 100 0)).2.2.2.2.2.1
    (samplePolicy 2) hcount
  refine ⟨hcount, hdecode.trans ?_⟩
  decide +kernel

/-- A count of treasuries above the length of the array is refused, and a length
of an address above the length of its array is read as that length, also where
the data ends before it. -/
theorem declared_past_the_array :
    (¬ ∀ p : RebalancePolicy,
      decodeRebalancePolicy (accountData (Vector.replicate 8 9) (rebalancePolicyBytes p) []) =
        .ok ⟨p.version, listedTreasuries p.treasuryCount p.treasuries⟩) ∧
    (¬ ∀ (data : List UInt8) (len : UInt8), (data.drop 8)[112]? = some len →
      data.length < 8 + 48 + len.toNat → ∃ e, decodeWithdrawalObligation data = .error e) := by
  constructor
  · intro hall
    have hsucceeds : Succeeds (decodeRebalancePolicy (accountData (Vector.replicate 8 9)
        (rebalancePolicyBytes (samplePolicy 5)) [])) := ⟨_, hall (samplePolicy 5)⟩
    have hcount := (succeeds_decodeRebalancePolicy.mp hsucceeds).2
    revert hcount
    decide +kernel
  · intro hall
    have hrefused := hall (List.replicate 180 200) 200 (by decide +kernel) (by decide +kernel)
    have hlen : 8 + 114 ≤ (List.replicate 180 (200 : UInt8)).length := by
      rw [List.length_replicate]
      decide
    exact not_succeeds.mpr hrefused (succeeds_decodeWithdrawalObligation.mpr hlen)

end Service.SolanaAccounts
