-- SUMMARY: Transaction envelopes: the bytes that are signed and the bytes that are broadcast, that a reader of the chain finds in them exactly the transaction and its signature, and that signing payloads name one transaction.
import ReserveBridge.Lib.Rlp
import ReserveBridge.Service.Robinhood.Auth
import ReserveBridge.Service.Robinhood.Broadcast

/-!
# Transactions

`service/src/evm/rlp.rs` and `service/src/evm/tx.rs`: the encoder for the two
transaction envelopes, and what is hashed and broadcast. Keys and hashes are left
out.
-/

namespace Service.Robinhood.Transaction
open Bytes Auth

/-! ## The encoder -/

/-- `position(|b| *b != 0).unwrap_or(otherwise)`. -/
def firstNonzero (bytes : List UInt8) (otherwise : ℕ) : ℕ :=
  (bytes.findIdx? (· ≠ 0)).getD otherwise

def minimalBeU64 (value : UInt64) : List UInt8 :=
  if value = 0 then []
  else (beBytes 8 value.toNat).drop (firstNonzero (beBytes 8 value.toNat) 7)

/-- The sums of bytes stay below 256. -/
def encodeLength (len : ℕ) (offset : UInt8) : List UInt8 :=
  if len ≤ 55 then [offset + UInt8.ofNat len]
  else
    let lenBytes := minimalBeU64 (UInt64.ofNat len)
    (offset + 55 + UInt8.ofNat lenBytes.length) :: lenBytes

def encodeBytes (bytes : List UInt8) : List UInt8 :=
  match bytes with
  | [b] => if b < 0x80 then [b] else encodeLength 1 0x80 ++ [b]
  | _ => encodeLength bytes.length 0x80 ++ bytes

def encodeUint (value : UInt64) : List UInt8 := encodeBytes (minimalBeU64 value)

def encodeU256 (value : Bytes32) : List UInt8 :=
  encodeBytes (value.toList.drop (firstNonzero value.toList value.toList.length))

/-- `EvmU256::from_u128`. -/
def fromU128 (value : ℕ) : Bytes32 := ⟨(encodeUint128 value).toArray, length_encodeUint128 value⟩

def encodeList (items : List (List UInt8)) : List UInt8 :=
  encodeLength (items.map List.length).sum 0xc0 ++ items.flatten

/-! ## Transactions -/

/-- Every fee is a `u128`. -/
def FeesFit : TxFees → Prop
  | .legacy gasPrice => gasPrice < 2 ^ 128
  | .eip1559 maxFeePerGas maxPriorityFeePerGas =>
    maxFeePerGas < 2 ^ 128 ∧ maxPriorityFeePerGas < 2 ^ 128

/-- A chain id is not zero, and a vector holds fewer than 2^63 bytes. -/
structure UnsignedTransaction where
  chainId : UInt64
  nonce : UInt64
  gasLimit : UInt64
  toAddress : EvmAddress
  value : Bytes32
  data : List UInt8
  fees : TxFees
  chainId_ne_zero : chainId ≠ 0
  data_fits : data.length < 2 ^ 63
  fees_fit : FeesFit fees

/-- `r || s || v` as the constructor admits it. -/
structure EvmSignature where
  r : Bytes32
  s : Bytes32
  v : UInt8
  r_ne_zero : r ≠ Vector.replicate 32 0
  s_ne_zero : s ≠ Vector.replicate 32 0
  v_mem : v ∈ [0, 1, 27, 28]

def EvmSignature.recoveryId (signature : EvmSignature) : UInt8 :=
  if signature.v = 27 ∨ signature.v = 28 then signature.v - 27 else signature.v

def trimLeadingZeros (bytes : Bytes32) : List UInt8 :=
  bytes.toList.drop (firstNonzero bytes.toList bytes.toList.length)

/-- The `v` of EIP-155, in 128 bits. -/
def legacyV (recoveryId : UInt8) (chainId : UInt64) : ℕ := recoveryId.toNat + chainId.toNat * 2 + 35

namespace UnsignedTransaction

def signingPayload (tx : UnsignedTransaction) : List UInt8 :=
  match tx.fees with
  | .legacy gasPrice =>
    encodeList [encodeUint tx.nonce, encodeU256 (fromU128 gasPrice), encodeUint tx.gasLimit,
      encodeBytes tx.toAddress.toList, encodeU256 tx.value, encodeBytes tx.data, encodeUint tx.chainId,
      encodeUint 0, encodeUint 0]
  | .eip1559 maxFeePerGas maxPriorityFeePerGas =>
    0x02 :: encodeList [encodeUint tx.chainId, encodeUint tx.nonce,
      encodeU256 (fromU128 maxPriorityFeePerGas), encodeU256 (fromU128 maxFeePerGas),
      encodeUint tx.gasLimit, encodeBytes tx.toAddress.toList, encodeU256 tx.value, encodeBytes tx.data,
      encodeList []]

def signedPayload (tx : UnsignedTransaction) (signature : EvmSignature) : List UInt8 :=
  let r := trimLeadingZeros signature.r
  let s := trimLeadingZeros signature.s
  match tx.fees with
  | .legacy gasPrice =>
    let v := legacyV signature.recoveryId tx.chainId
    encodeList [encodeUint tx.nonce, encodeU256 (fromU128 gasPrice), encodeUint tx.gasLimit,
      encodeBytes tx.toAddress.toList, encodeU256 tx.value, encodeBytes tx.data, encodeU256 (fromU128 v),
      encodeBytes r, encodeBytes s]
  | .eip1559 maxFeePerGas maxPriorityFeePerGas =>
    0x02 :: encodeList [encodeUint tx.chainId, encodeUint tx.nonce,
      encodeU256 (fromU128 maxPriorityFeePerGas), encodeU256 (fromU128 maxFeePerGas),
      encodeUint tx.gasLimit, encodeBytes tx.toAddress.toList, encodeU256 tx.value, encodeBytes tx.data,
      encodeList [], encodeUint signature.recoveryId.toUInt64, encodeBytes r, encodeBytes s]

end UnsignedTransaction

/-! ## The encoder writes the reference encoding -/

theorem drop_firstNonzero {bytes : List UInt8} {otherwise : ℕ}
    (h : Rlp.trim bytes = [] → bytes.length ≤ otherwise) :
    bytes.drop (firstNonzero bytes otherwise) = Rlp.trim bytes := by
  have htrim : Rlp.trim bytes = bytes.drop (bytes.findIdx (· ≠ 0)) := by
    rw [Rlp.trim, List.dropWhile_eq_drop_findIdx_not]
    simp
  rw [firstNonzero]
  cases hfind : bytes.findIdx? (· ≠ 0) with
  | none =>
    rw [List.findIdx?_eq_none_iff_findIdx_eq] at hfind
    rw [hfind, List.drop_length] at htrim
    rw [Option.getD_none, htrim, List.drop_eq_nil_of_le (h htrim)]
  | some first =>
    rw [List.findIdx?_eq_some_iff_findIdx_eq] at hfind
    rw [Option.getD_some, htrim, hfind.2]

theorem minimalBeU64_eq (value : UInt64) : minimalBeU64 value = Rlp.natBytes value.toNat := by
  have htrim : Rlp.trim (beBytes 8 value.toNat) = Rlp.natBytes value.toNat := by
    rw [Rlp.trim_eq, beValue_beBytes value.toNat_lt]
  unfold minimalBeU64
  split_ifs with hzero
  · subst hzero
    rfl
  · rw [drop_firstNonzero, htrim]
    intro hnil
    -- a number whose bytes are all zero is zero
    have hvalue := Rlp.beValue_natBytes value.toNat
    rw [← htrim, hnil] at hvalue
    exact absurd (UInt64.toNat_inj.mp hvalue.symm) hzero

theorem encodeLength_eq {len : ℕ} (hlen : len < 2 ^ 64) (offset : UInt8) :
    encodeLength len offset = Rlp.header offset.toNat len := by
  have hcast : (UInt64.ofNat len).toNat = len := UInt64.toNat_ofNat_of_lt' hlen
  unfold encodeLength Rlp.header
  simp only [minimalBeU64_eq, hcast, UInt8.ofNat_add, UInt8.ofNat_toNat]
  rfl

theorem encodeBytes_eq {bytes : List UInt8} (h : bytes.length < 2 ^ 64) :
    encodeBytes bytes = Rlp.encode (.bytes bytes) := by
  rw [Rlp.encode]
  match bytes with
  | [] => exact congrArg (· ++ []) (encodeLength_eq h 0x80)
  | [b] =>
    have hheader : encodeLength 1 0x80 = Rlp.header 0x80 1 := encodeLength_eq (by decide) 0x80
    rw [encodeBytes, Rlp.encodeString, hheader]
    rfl
  | b :: c :: bytes => exact congrArg (· ++ b :: c :: bytes) (encodeLength_eq h 0x80)

theorem natBytes_fits {n : ℕ} (h : n < 256 ^ 32) : (Rlp.natBytes n).length < 2 ^ 64 :=
  (Rlp.length_natBytes_le h).trans_lt (by decide)

theorem encodeUint_eq (value : UInt64) : encodeUint value = Rlp.encode (.ofNat value.toNat) := by
  have hfits : (Rlp.natBytes value.toNat).length < 2 ^ 64 :=
    natBytes_fits (value.toNat_lt.trans (by decide))
  rw [encodeUint, minimalBeU64_eq, encodeBytes_eq hfits]
  rfl

theorem word_lt (word : Bytes32) : beValue word.toList < 256 ^ 32 := by
  have hlt := beValue_lt word.toList
  rwa [Vector.length_toList] at hlt

/-- A word without its leading zeros is the item of its number. -/
theorem encodeBytes_word (word : Bytes32) :
    encodeBytes (word.toList.drop (firstNonzero word.toList word.toList.length)) =
      Rlp.encode (.ofNat (beValue word.toList)) := by
  rw [drop_firstNonzero (fun _ => Nat.le_refl _), Rlp.trim_eq,
    encodeBytes_eq (natBytes_fits (word_lt word))]
  rfl

theorem encodeU256_eq (word : Bytes32) :
    encodeU256 word = Rlp.encode (.ofNat (beValue word.toList)) :=
  encodeBytes_word word

theorem beValue_fromU128 {value : ℕ} (h : value < 2 ^ 128) :
    beValue (fromU128 value).toList = value := by
  have hword : (fromU128 value).toList = beBytes 32 value := by
    rw [← encodeUint128_eq h]
    simp [fromU128]
  rw [hword, beValue_beBytes (h.trans (by decide))]

theorem encodeList_eq {items : List Rlp.Item} (h : (Rlp.encodeAll items).length < 2 ^ 64) :
    encodeList (items.map Rlp.encode) = Rlp.encode (.list items) := by
  rw [Rlp.encodeAll_eq] at h
  rw [encodeList, ← List.length_flatten, encodeLength_eq h, Rlp.encode, Rlp.encodeAll_eq]
  rfl

/-! ## Payloads as items -/

namespace UnsignedTransaction

/-- The list of a signing payload. -/
def signingItems (tx : UnsignedTransaction) : List Rlp.Item :=
  match tx.fees with
  | .legacy gasPrice =>
    [.ofNat tx.nonce.toNat, .ofNat gasPrice, .ofNat tx.gasLimit.toNat, .bytes tx.toAddress.toList,
      .ofNat (beValue tx.value.toList), .bytes tx.data, .ofNat tx.chainId.toNat, .ofNat 0, .ofNat 0]
  | .eip1559 maxFeePerGas maxPriorityFeePerGas =>
    [.ofNat tx.chainId.toNat, .ofNat tx.nonce.toNat, .ofNat maxPriorityFeePerGas,
      .ofNat maxFeePerGas, .ofNat tx.gasLimit.toNat, .bytes tx.toAddress.toList,
      .ofNat (beValue tx.value.toList), .bytes tx.data, .list []]

/-- The list of a signed payload. -/
def signedItems (tx : UnsignedTransaction) (signature : EvmSignature) : List Rlp.Item :=
  match tx.fees with
  | .legacy gasPrice =>
    [.ofNat tx.nonce.toNat, .ofNat gasPrice, .ofNat tx.gasLimit.toNat, .bytes tx.toAddress.toList,
      .ofNat (beValue tx.value.toList), .bytes tx.data,
      .ofNat (legacyV signature.recoveryId tx.chainId), .ofNat (beValue signature.r.toList),
      .ofNat (beValue signature.s.toList)]
  | .eip1559 maxFeePerGas maxPriorityFeePerGas =>
    [.ofNat tx.chainId.toNat, .ofNat tx.nonce.toNat, .ofNat maxPriorityFeePerGas,
      .ofNat maxFeePerGas, .ofNat tx.gasLimit.toNat, .bytes tx.toAddress.toList,
      .ofNat (beValue tx.value.toList), .bytes tx.data, .list [],
      .ofNat signature.recoveryId.toNat, .ofNat (beValue signature.r.toList),
      .ofNat (beValue signature.s.toList)]

/-- The type byte of a typed transaction. -/
def typeByte (tx : UnsignedTransaction) : List UInt8 :=
  match tx.fees with
  | .legacy _ => []
  | .eip1559 _ _ => [0x02]

theorem fees_lt (tx : UnsignedTransaction) :
    (∀ gasPrice, tx.fees = .legacy gasPrice → gasPrice < 2 ^ 128) ∧
      ∀ maxFee tip, tx.fees = .eip1559 maxFee tip → maxFee < 2 ^ 128 ∧ tip < 2 ^ 128 := by
  have hfit := tx.fees_fit
  constructor
  · intro gasPrice hfees
    rwa [hfees] at hfit
  · intro maxFee tip hfees
    rwa [hfees] at hfit

theorem length_u64_le (value : UInt64) : (Rlp.encode (.ofNat value.toNat)).length ≤ 41 := by
  apply Rlp.length_ofNat_le
  exact value.toNat_lt.trans (by decide)

theorem length_u128_le {value : ℕ} (h : value < 2 ^ 128) :
    (Rlp.encode (.ofNat value)).length ≤ 41 := by
  apply Rlp.length_ofNat_le
  exact h.trans (by decide)

theorem length_word_le (word : Bytes32) :
    (Rlp.encode (.ofNat (beValue word.toList))).length ≤ 41 :=
  Rlp.length_ofNat_le (word_lt word)

theorem length_bytes_le {value : List UInt8} (h : value.length < 2 ^ 64) :
    (Rlp.encode (.bytes value)).length ≤ value.length + 9 := by
  rw [Rlp.encode]
  exact Rlp.length_encodeString_le h

theorem legacyV_lt (recoveryId : UInt8) (chainId : UInt64) :
    legacyV recoveryId chainId < 2 ^ 128 := by
  have hrecovery := recoveryId.toNat_lt
  have hchain := chainId.toNat_lt
  unfold legacyV
  omega

/-- The fields that both envelopes carry take little more than the data. -/
theorem length_fields_le (tx : UnsignedTransaction) :
    (Rlp.encode (.ofNat tx.chainId.toNat)).length + (Rlp.encode (.ofNat tx.nonce.toNat)).length +
        (Rlp.encode (.ofNat tx.gasLimit.toNat)).length +
        (Rlp.encode (.bytes tx.toAddress.toList)).length +
        (Rlp.encode (.ofNat (beValue tx.value.toList))).length +
        (Rlp.encode (.bytes tx.data)).length ≤ 202 + 2 ^ 63 := by
  have hdata := tx.data_fits
  have hchain := length_u64_le tx.chainId
  have hnonce := length_u64_le tx.nonce
  have hgas := length_u64_le tx.gasLimit
  have hto := @length_bytes_le tx.toAddress.toList (by simp)
  have hvalue := length_word_le tx.value
  have hbytes := @length_bytes_le tx.data (by omega)
  rw [Vector.length_toList] at hto
  omega

theorem signingItems_fit (tx : UnsignedTransaction) :
    (Rlp.encodeAll tx.signingItems).length + 9 < 2 ^ 64 := by
  have hfields := tx.length_fields_le
  unfold signingItems
  split
  case h_1 gasPrice hfees =>
    have hprice := length_u128_le (tx.fees_lt.1 gasPrice hfees)
    have hzero := @length_u128_le 0 (by decide)
    simp only [Rlp.encodeAll, List.length_append, List.length_nil]
    omega
  case h_2 maxFee tip hfees =>
    have hmax := length_u128_le (tx.fees_lt.2 maxFee tip hfees).1
    have htip := length_u128_le (tx.fees_lt.2 maxFee tip hfees).2
    have hlist : (Rlp.encode (.list [])).length = 1 := by decide
    simp only [Rlp.encodeAll, List.length_append, List.length_nil]
    omega

theorem signedItems_fit (tx : UnsignedTransaction) (signature : EvmSignature) :
    (Rlp.encodeAll (tx.signedItems signature)).length + 9 < 2 ^ 64 := by
  have hfields := tx.length_fields_le
  have hr := length_word_le signature.r
  have hs := length_word_le signature.s
  unfold signedItems
  split
  case h_1 gasPrice hfees =>
    have hprice := length_u128_le (tx.fees_lt.1 gasPrice hfees)
    have hv := length_u128_le (legacyV_lt signature.recoveryId tx.chainId)
    simp only [Rlp.encodeAll, List.length_append, List.length_nil]
    omega
  case h_2 maxFee tip hfees =>
    have hmax := length_u128_le (tx.fees_lt.2 maxFee tip hfees).1
    have htip := length_u128_le (tx.fees_lt.2 maxFee tip hfees).2
    have hlist : (Rlp.encode (.list [])).length = 1 := by decide
    have hparity := @length_u128_le signature.recoveryId.toNat
      (signature.recoveryId.toNat_lt.trans (by decide))
    simp only [Rlp.encodeAll, List.length_append, List.length_nil]
    omega

theorem encodeBytes_trim (word : Bytes32) :
    encodeBytes (trimLeadingZeros word) = Rlp.encode (.ofNat (beValue word.toList)) :=
  encodeBytes_word word

theorem encodeBytes_data (tx : UnsignedTransaction) :
    encodeBytes tx.data = Rlp.encode (.bytes tx.data) := by
  apply encodeBytes_eq
  exact tx.data_fits.trans (by decide)

theorem encodeBytes_address (address : EvmAddress) :
    encodeBytes address.toList = Rlp.encode (.bytes address.toList) := by
  apply encodeBytes_eq
  rw [Vector.length_toList]
  decide

theorem encodeList_nil : encodeList [] = Rlp.encode (.list []) := by decide

theorem signingPayload_eq (tx : UnsignedTransaction) :
    tx.signingPayload = tx.typeByte ++ Rlp.encode (.list tx.signingItems) := by
  have hfit := tx.signingItems_fit
  rw [← encodeList_eq (by omega)]
  cases hfees : tx.fees with
  | legacy gasPrice =>
    have hprice := beValue_fromU128 (tx.fees_lt.1 gasPrice hfees)
    simp only [signingPayload, typeByte, signingItems, hfees, List.map_cons, List.map_nil,
      encodeUint_eq, encodeU256_eq, hprice, encodeBytes_address, encodeBytes_data,
      UInt64.toNat_zero, List.nil_append]
  | eip1559 maxFee tip =>
    have hmax := beValue_fromU128 (tx.fees_lt.2 maxFee tip hfees).1
    have htip := beValue_fromU128 (tx.fees_lt.2 maxFee tip hfees).2
    simp only [signingPayload, typeByte, signingItems, hfees, List.map_cons, List.map_nil,
      encodeUint_eq, encodeU256_eq, hmax, htip, encodeBytes_address, encodeBytes_data,
      encodeList_nil, List.singleton_append]

theorem signedPayload_eq (tx : UnsignedTransaction) (signature : EvmSignature) :
    tx.signedPayload signature = tx.typeByte ++ Rlp.encode (.list (tx.signedItems signature)) := by
  have hfit := tx.signedItems_fit signature
  rw [← encodeList_eq (by omega)]
  cases hfees : tx.fees with
  | legacy gasPrice =>
    have hprice := beValue_fromU128 (tx.fees_lt.1 gasPrice hfees)
    have hv := beValue_fromU128 (legacyV_lt signature.recoveryId tx.chainId)
    simp only [signedPayload, typeByte, signedItems, hfees, List.map_cons, List.map_nil,
      encodeUint_eq, encodeU256_eq, hprice, hv, encodeBytes_address, encodeBytes_data,
      encodeBytes_trim, List.nil_append]
  | eip1559 maxFee tip =>
    have hmax := beValue_fromU128 (tx.fees_lt.2 maxFee tip hfees).1
    have htip := beValue_fromU128 (tx.fees_lt.2 maxFee tip hfees).2
    simp only [signedPayload, typeByte, signedItems, hfees, List.map_cons, List.map_nil,
      encodeUint_eq, encodeU256_eq, hmax, htip, encodeBytes_address, encodeBytes_data,
      encodeBytes_trim, encodeList_nil, UInt8.toNat_toUInt64, List.singleton_append]

end UnsignedTransaction

/-! ## Reading a transaction -/

/-- The fields of a transaction as numbers and bytes. -/
structure Fields where
  chainId : ℕ
  nonce : ℕ
  gasLimit : ℕ
  toAddress : List UInt8
  value : ℕ
  data : List UInt8
  fees : TxFees
  deriving DecidableEq

/-- What a signed payload says. -/
structure Signed where
  fields : Fields
  recoveryId : ℕ
  r : ℕ
  s : ℕ
  deriving DecidableEq

def UnsignedTransaction.fields (tx : UnsignedTransaction) : Fields where
  chainId := tx.chainId.toNat
  nonce := tx.nonce.toNat
  gasLimit := tx.gasLimit.toNat
  toAddress := tx.toAddress.toList
  value := beValue tx.value.toList
  data := tx.data
  fees := tx.fees

/-- A legacy `v` below 35 names no chain. -/
def readLegacy : Rlp.Item → Option Signed
  | .list [nonce, gasPrice, gasLimit, .bytes toAddress, value, .bytes data, v, r, s] => do
    let nonce ← nonce.nat?
    let gasPrice ← gasPrice.nat?
    let gasLimit ← gasLimit.nat?
    let value ← value.nat?
    let v ← v.nat?
    let r ← r.nat?
    let s ← s.nat?
    if 35 ≤ v ∧ toAddress.length = 20 then
      some ⟨⟨(v - 35) / 2, nonce, gasLimit, toAddress, value, data, .legacy gasPrice⟩,
        (v - 35) % 2, r, s⟩
    else none
  | _ => none

def readEip1559 : Rlp.Item → Option Signed
  | .list [chainId, nonce, tip, maxFee, gasLimit, .bytes toAddress, value, .bytes data, .list [],
      yParity, r, s] => do
    let chainId ← chainId.nat?
    let nonce ← nonce.nat?
    let tip ← tip.nat?
    let maxFee ← maxFee.nat?
    let gasLimit ← gasLimit.nat?
    let value ← value.nat?
    let yParity ← yParity.nat?
    let r ← r.nat?
    let s ← s.nat?
    if toAddress.length = 20 then
      some ⟨⟨chainId, nonce, gasLimit, toAddress, value, data, .eip1559 maxFee tip⟩, yParity, r, s⟩
    else none
  | _ => none

/-- A reader of the chain: the type byte tells the envelopes apart, all bytes are used,
and every integer is minimal. -/
def readSigned (raw : List UInt8) : Option Signed :=
  if raw.head? = some 0x02 then (Rlp.decode raw.tail).bind readEip1559
  else (Rlp.decode raw).bind readLegacy

theorem EvmSignature.recoveryId_le (signature : EvmSignature) : signature.recoveryId.toNat ≤ 1 := by
  have hmem := signature.v_mem
  unfold EvmSignature.recoveryId
  simp only [List.mem_cons, List.not_mem_nil, or_false] at hmem
  rcases hmem with hv | hv | hv | hv <;> rw [hv] <;> decide

/-- The first byte of a legacy payload is that of a list. -/
theorem head?_legacy {items : List Rlp.Item} (h : (Rlp.encodeAll items).length < 2 ^ 64) :
    (Rlp.encode (.list items)).head? ≠ some 0x02 := by
  obtain ⟨b, bs, heq, hlo⟩ := Rlp.head_encode_list h
  rw [heq, List.head?_cons]
  intro hb
  rw [Option.some.inj hb] at hlo
  exact absurd hlo (by decide)

theorem encode_list_lt {items : List Rlp.Item} (h : (Rlp.encodeAll items).length + 9 < 2 ^ 64) :
    (Rlp.encode (.list items)).length < 2 ^ 64 := by
  have hle := @Rlp.length_encode_list_le items (by omega)
  omega

theorem readSigned_signedPayload (tx : UnsignedTransaction) (signature : EvmSignature) :
    readSigned (tx.signedPayload signature) =
      some ⟨tx.fields, signature.recoveryId.toNat, beValue signature.r.toList,
        beValue signature.s.toList⟩ := by
  have hfit := tx.signedItems_fit signature
  have hdecode := Rlp.decode_encode (encode_list_lt hfit)
  have hrecovery := signature.recoveryId_le
  rw [tx.signedPayload_eq]
  cases hfees : tx.fees with
  | legacy gasPrice =>
    have hhead := @head?_legacy (tx.signedItems signature) (by omega)
    have hv : 35 ≤ legacyV signature.recoveryId tx.chainId ∧ tx.toAddress.toList.length = 20 :=
      ⟨Nat.le_add_left _ _, tx.toAddress.length_toList⟩
    have hchain : (legacyV signature.recoveryId tx.chainId - 35) / 2 = tx.chainId.toNat := by
      unfold legacyV
      omega
    have hparity : (legacyV signature.recoveryId tx.chainId - 35) % 2 =
        signature.recoveryId.toNat := by
      unfold legacyV
      omega
    have htype : tx.typeByte = [] := by rw [UnsignedTransaction.typeByte, hfees]
    rw [htype, List.nil_append, readSigned, if_neg hhead, hdecode, Option.bind_some,
      UnsignedTransaction.signedItems, hfees]
    simp only [readLegacy, Rlp.nat?_ofNat, Option.bind_eq_bind, Option.bind_some]
    rw [if_pos hv, hchain, hparity, UnsignedTransaction.fields, hfees]
  | eip1559 maxFee tip =>
    have htype : tx.typeByte = [0x02] := by rw [UnsignedTransaction.typeByte, hfees]
    rw [htype, List.singleton_append, readSigned, List.head?_cons, if_pos rfl, List.tail_cons,
      hdecode, Option.bind_some, UnsignedTransaction.signedItems, hfees]
    simp only [readEip1559, Rlp.nat?_ofNat, Option.bind_eq_bind, Option.bind_some]
    rw [if_pos tx.toAddress.length_toList, UnsignedTransaction.fields, hfees]

/-! ## Signing payloads -/

theorem typeByte_eq_of_payloads {tx tx' : UnsignedTransaction}
    (h : tx.signingPayload = tx'.signingPayload) : tx.typeByte = tx'.typeByte := by
  have hfit := tx.signingItems_fit
  have hfit' := tx'.signingItems_fit
  have hhead := @head?_legacy tx.signingItems (by omega)
  have hhead' := @head?_legacy tx'.signingItems (by omega)
  rw [tx.signingPayload_eq, tx'.signingPayload_eq] at h
  unfold UnsignedTransaction.typeByte at h ⊢
  split at h <;> split at h
  · rfl
  · rw [List.nil_append] at h
    exact absurd (congrArg List.head? h) hhead
  · rw [List.nil_append] at h
    exact absurd (congrArg List.head? h).symm hhead'
  · rfl

theorem signingItems_eq_of_payloads {tx tx' : UnsignedTransaction}
    (h : tx.signingPayload = tx'.signingPayload) : tx.signingItems = tx'.signingItems := by
  have htype := typeByte_eq_of_payloads h
  rw [tx.signingPayload_eq, tx'.signingPayload_eq, htype] at h
  have hlist := Rlp.encode_inj (encode_list_lt tx.signingItems_fit) (List.append_cancel_left h)
  exact Rlp.Item.list.inj hlist

theorem word_inj {word word' : Bytes32}
    (h : Rlp.Item.ofNat (beValue word.toList) = .ofNat (beValue word'.toList)) : word = word' := by
  have hlength : word.toList.length = word'.toList.length := by
    rw [Vector.length_toList, Vector.length_toList]
  have hvalue := Rlp.ofNat_inj.mp h
  apply Vector.toList_inj.mp
  rw [← beBytes_beValue hlength, hvalue, beBytes_beValue rfl]

theorem u64_inj {value value' : UInt64}
    (h : Rlp.Item.ofNat value.toNat = .ofNat value'.toNat) : value = value' :=
  UInt64.toNat_inj.mp (Rlp.ofNat_inj.mp h)

theorem address_inj {address address' : EvmAddress}
    (h : Rlp.Item.bytes address.toList = .bytes address'.toList) : address = address' :=
  Vector.toList_inj.mp (Rlp.Item.bytes.inj h)

/-- The signed list names every field. -/
theorem eq_of_signingItems {tx tx' : UnsignedTransaction} (htype : tx.typeByte = tx'.typeByte)
    (h : tx.signingItems = tx'.signingItems) : tx = tx' := by
  obtain ⟨chainId, nonce, gasLimit, toAddress, value, data, fees, hchain, hdata, hfees⟩ := tx
  obtain ⟨chainId', nonce', gasLimit', toAddress', value', data', fees', hchain', hdata', hfees'⟩ :=
    tx'
  cases fees with
  | legacy gasPrice =>
    cases fees' with
    | legacy gasPrice' =>
      simp only [UnsignedTransaction.signingItems, List.cons.injEq] at h
      obtain ⟨h1, h2, h3, h4, h5, h6, h7, -⟩ := h
      obtain rfl := u64_inj h1
      obtain rfl := Rlp.ofNat_inj.mp h2
      obtain rfl := u64_inj h3
      obtain rfl := address_inj h4
      obtain rfl := word_inj h5
      obtain rfl := Rlp.Item.bytes.inj h6
      obtain rfl := u64_inj h7
      rfl
    | eip1559 maxFee' tip' => cases htype
  | eip1559 maxFee tip =>
    cases fees' with
    | legacy gasPrice' => cases htype
    | eip1559 maxFee' tip' =>
      simp only [UnsignedTransaction.signingItems, List.cons.injEq] at h
      obtain ⟨h1, h2, h3, h4, h5, h6, h7, h8, -⟩ := h
      obtain rfl := u64_inj h1
      obtain rfl := u64_inj h2
      obtain rfl := Rlp.ofNat_inj.mp h3
      obtain rfl := Rlp.ofNat_inj.mp h4
      obtain rfl := u64_inj h5
      obtain rfl := address_inj h6
      obtain rfl := word_inj h7
      obtain rfl := Rlp.Item.bytes.inj h8
      rfl

theorem signingPayload_inj {tx tx' : UnsignedTransaction}
    (h : tx.signingPayload = tx'.signingPayload) : tx = tx' :=
  eq_of_signingItems (typeByte_eq_of_payloads h) (signingItems_eq_of_payloads h)

theorem legacyV_inj {signature signature' : EvmSignature} {chainId chainId' : UInt64}
    (h : legacyV signature.recoveryId chainId = legacyV signature'.recoveryId chainId') :
    signature.recoveryId = signature'.recoveryId ∧ chainId = chainId' := by
  have hle := signature.recoveryId_le
  have hle' := signature'.recoveryId_le
  unfold legacyV at h
  constructor
  · apply UInt8.toNat_inj.mp
    omega
  · apply UInt64.toNat_inj.mp
    omega

/-- The signed payload reads back as the transaction and its signature, in either
envelope, signing payloads name one transaction, and a legacy `v` one recovery id and
one chain. -/
theorem transaction_encoding_is_faithful (tx tx' : UnsignedTransaction)
    (signature signature' : EvmSignature) (chainId chainId' : UInt64) :
    readSigned (tx.signedPayload signature) =
        some ⟨tx.fields, signature.recoveryId.toNat, beValue signature.r.toList,
          beValue signature.s.toList⟩ ∧
      (tx.signingPayload = tx'.signingPayload ↔ tx = tx') ∧
      (legacyV signature.recoveryId chainId = legacyV signature'.recoveryId chainId' ↔
        signature.recoveryId = signature'.recoveryId ∧ chainId = chainId') := by
  refine ⟨readSigned_signedPayload tx signature, ⟨signingPayload_inj, ?_⟩, legacyV_inj, ?_⟩
  · rintro rfl
    rfl
  · rintro ⟨hrecovery, rfl⟩
    rw [hrecovery]

end Service.Robinhood.Transaction
