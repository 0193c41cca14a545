-- SUMMARY: Hex, addresses and amounts as text: the readers of the service, the canonical spellings they read back, and the checksum of a mixed-case address.
import ReserveBridge.Goldcoin.RedeemScript
import ReserveBridge.Lib.Spelling
import ReserveBridge.Service.Robinhood.Auth

/-!
# EVM values as text

`service/src/evm/hex.rs`, `FromStr` and `to_checksum_string` of
`service/src/evm/address.rs`, and 128-bit integers in decimal. The bytes of a body
are read by the decoder of `service/src/goldcoin/hex.rs`.
-/

open Goldcoin

namespace Service.Robinhood
open Guard Auth

/-! ## Hex -/

/-- `EvmHexError`. -/
inductive EvmHexError
  | missingPrefix (found : String)
  | wrongLength (expected actual : ℕ)
  | oddLength (length : ℕ)
  | invalidDigit (position : ℕ) (found : Char)
  /-- A slice of the body would cut a character: the call does not return. -/
  | cutCharacter
  deriving DecidableEq

def stripPrefix (s : String) : Except EvmHexError (List Char) :=
  match s.toList with
  | '0' :: 'x' :: body => .ok body
  | chars => .error (.missingPrefix (String.ofList (chars.take 8)))

/-- `is_ascii_hexdigit`. -/
def isAsciiHexdigit (c : Char) : Bool := (toDigit16 c).isSome

/-- `find_non_hex`, from a byte position. -/
def findNonHex (position : ℕ) : List Char → Option (ℕ × Char)
  | [] => none
  | c :: body =>
    if isAsciiHexdigit c then findNonHex (position + c.utf8Size) body else some (position, c)

def mapBare (body : List Char) : HexError → EvmHexError
  | .invalidDigit _ =>
    match findNonHex 0 body with
    | some (position, found) => .invalidDigit position found
    | none => .oddLength (byteLength body)
  | .oddLength length => .oddLength length
  | .cutCharacter => .cutCharacter

theorem byteLength_of_decodePairs {body : List Char} {bytes : List UInt8}
    (h : decodePairs body = .ok bytes) : byteLength body = 2 * bytes.length := by
  fun_induction decodePairs body generalizing bytes with
  | case1 =>
    obtain rfl := Except.ok.inj h
    rfl
  | case2 c => cases h
  | case3 c d rest ih =>
    simp only [bind_eq_ok, require_eq_ok, exists_unit, orFail_eq_ok, pure_eq_ok] at h
    obtain ⟨-, ⟨hc, hd⟩, byte, -, tail, htail, rfl⟩ := h
    have hrest : byteLength rest = 2 * tail.length := ih htail
    simp only [byteLength, List.map_cons, List.sum_cons, hc, hd, List.length_cons] at hrest ⊢
    omega

/-- `decode_exact::<N>`. The loop fills as many bytes as the text has pairs. -/
def decodeExact (n : ℕ) (body : List Char) (hlength : byteLength body = 2 * n) :
    Except HexError (Vector UInt8 n) :=
  match h : decodePairs body with
  | .error e => .error e
  | .ok bytes =>
    .ok ⟨bytes.toArray, by
      have hbytes := byteLength_of_decodePairs h
      rw [List.size_toArray]
      omega⟩

/-- `decode_fixed::<N>`. The length checks of `decode_exact` repeat the one made here. -/
def decodeFixed (n : ℕ) (s : String) : Except EvmHexError (Vector UInt8 n) := do
  let body ← stripPrefix s
  if h : byteLength body = 2 * n then (decodeExact n body h).mapError (mapBare body)
  else .error (.wrongLength (2 * n) (byteLength body))

/-- `encode_lower`. -/
def encodeLower (bytes : List UInt8) : String := String.ofList ('0' :: 'x' :: bytes.flatMap hexPair)

theorem decodeExact_eq_ok {n : ℕ} {body : List Char} {hlength : byteLength body = 2 * n}
    {v : Vector UInt8 n} : decodeExact n body hlength = .ok v ↔ decodePairs body = .ok v.toList := by
  unfold decodeExact
  split
  case h_1 e he => simp [he]
  case h_2 bytes hbytes =>
    constructor
    · intro h
      obtain rfl := Except.ok.inj h
      exact hbytes
    · intro h
      obtain rfl : bytes = v.toList := Except.ok.inj (hbytes.symm.trans h)
      exact congrArg Except.ok (Vector.toList_inj.mp (by simp))

theorem stripPrefix_eq_ok {s : String} {body : List Char} :
    stripPrefix s = .ok body ↔ s.toList = '0' :: 'x' :: body := by
  unfold stripPrefix
  split
  case h_1 body' hs => simp [hs]
  case h_2 hne =>
    constructor
    · intro h
      cases h
    · intro hs
      exact absurd hs (hne body)

/-- What the decoder reads are the pairs after the prefix. -/
theorem decodeFixed_eq_ok {n : ℕ} {s : String} {v : Vector UInt8 n} : decodeFixed n s = .ok v ↔
    ∃ body, s.toList = '0' :: 'x' :: body ∧ decodePairs body = .ok v.toList := by
  simp only [decodeFixed, bind_eq_ok, stripPrefix_eq_ok]
  refine exists_congr fun body => and_congr_right fun _ => ?_
  constructor
  · intro h
    split_ifs at h with hlength
    rw [mapError_eq_ok, decodeExact_eq_ok] at h
    exact h
  · intro h
    have hlength : byteLength body = 2 * n := by
      rw [byteLength_of_decodePairs h, Vector.length_toList]
    rw [dif_pos hlength, mapError_eq_ok, decodeExact_eq_ok]
    exact h

/-- The hex text of `n` bytes. -/
def hexText (n : ℕ) : Spelling String EvmHexError (Vector UInt8 n) where
  read := decodeFixed n
  write v := encodeLower v.toList
  read_write v := decodeFixed_eq_ok.mpr ⟨_, String.toList_ofList, decodePairs_flatMap v.toList⟩

/-! ## Addresses -/

/-- `EvmAddressError`. -/
inductive EvmAddressError
  | hex (error : EvmHexError)
  | checksumMismatch (given expected : String)
  deriving DecidableEq

/-- The nibble of the digest at a digit, high then low within each byte. -/
def digestNibble (digest : List UInt8) (index : ℕ) : UInt8 :=
  let byte := digest[index / 2]?.getD 0
  if index % 2 = 0 then byte >>> 4 else byte &&& 0x0f

section Address

variable (keccak : Keccak)

/-- The digits of `to_checksum_string`: the lowercase ones, raised where the digest says so. -/
def checksumDigits (address : EvmAddress) : List Char :=
  let digest := (keccak (textBytes (hexEncode address.toList))).toList
  (address.toList.flatMap hexPair).mapIdx fun index digit =>
    if 8 ≤ digestNibble digest index then digit.toUpper else digit

def toChecksumString (address : EvmAddress) : String :=
  String.ofList ('0' :: 'x' :: checksumDigits keccak address)

/-- `claims_a_checksum`. -/
def claimsAChecksum (body : List Char) : Bool := body.any Char.isUpper && body.any Char.isLower

/-- `EvmAddress::from_str`. -/
def addressFromStr (s : String) : Except EvmAddressError EvmAddress := do
  let address ← (decodeFixed 20 s).mapError .hex
  let body := s.toList.drop 2
  require (claimsAChecksum body → (toChecksumString keccak address).toList.drop 2 = body)
    (.checksumMismatch s (toChecksumString keccak address))
  return address

end Address

theorem digit_raised {k : ℕ} (h : k < 16) : toDigit16 (Nat.digitChar k).toUpper = some k ∧
    (Nat.digitChar k).toUpper ≠ '+' ∧ (Nat.digitChar k).toUpper.utf8Size = 1 := by
  revert k
  decide +kernel

/-- A digit in either case is read as the same value, and is one byte long. -/
theorem digit_recased {k : ℕ} (h : k < 16) {c : Char}
    (hc : c = Nat.digitChar k ∨ c = (Nat.digitChar k).toUpper) :
    toDigit16 c = some k ∧ c ≠ '+' ∧ c.utf8Size = 1 := by
  cases hc with
  | inl hc => exact hc ▸ ⟨toDigit16_digitChar h, digitChar_ne_plus h, utf8Size_digitChar h⟩
  | inr hc => exact hc ▸ digit_raised h

/-- The text of bytes is read back whatever the case of each digit. -/
theorem decodePairs_recased {bytes : List UInt8} {body : List Char}
    (h : List.Forall₂ (fun digit c => c = digit ∨ c = digit.toUpper) (bytes.flatMap hexPair) body) :
    decodePairs body = .ok bytes := by
  induction bytes generalizing body with
  | nil =>
    obtain rfl := List.forall₂_nil_left_iff.mp h
    rfl
  | cons b bytes ih =>
    have hb : b.toNat < 256 := b.toNat_lt
    rw [List.flatMap_cons, hexPair, List.cons_append, List.cons_append, List.nil_append,
      List.forall₂_cons_left_iff] at h
    obtain ⟨c, rest, hc, h, rfl⟩ := h
    obtain ⟨d, rest, hd, hrest, rfl⟩ := List.forall₂_cons_left_iff.mp h
    obtain ⟨hhigh, hplus, hsize⟩ := digit_recased (by omega) hc
    obtain ⟨hlow, -, hsize'⟩ := digit_recased (by omega) hd
    have hbyte : parseHexPair c d = some b := by
      have hvalue : 16 * (b.toNat / 16) + b.toNat % 16 = b.toNat := by omega
      rw [parseHexPair, if_neg hplus, hhigh, hlow]
      simp only [Option.bind_eq_bind, Option.bind_some, hvalue, UInt8.ofNat_toNat]
      rfl
    simp only [decodePairs, hsize, hsize', hbyte, ih hrest, bind_eq_ok, require_eq_ok, orFail_eq_ok,
      exists_unit, pure_eq_ok]
    exact ⟨by decide, ⟨trivial, trivial⟩, b, rfl, bytes, rfl, rfl⟩

/-- The checksummed digits are the digits, some of them raised. -/
theorem forall₂_mapIdx_recased {p : ℕ → Prop} [DecidablePred p] (digits : List Char) :
    List.Forall₂ (fun digit c => c = digit ∨ c = digit.toUpper) digits
      (digits.mapIdx fun index digit => if p index then digit.toUpper else digit) := by
  rw [List.forall₂_iff_get]
  refine ⟨by simp, fun i h₁ h₂ => ?_⟩
  simp only [List.get_eq_getElem, List.getElem_mapIdx]
  by_cases hp : p i
  · exact .inr (if_pos hp)
  · exact .inl (if_neg hp)

theorem decodePairs_checksumDigits (keccak : Keccak) (address : EvmAddress) :
    decodePairs (checksumDigits keccak address) = .ok address.toList :=
  decodePairs_recased (forall₂_mapIdx_recased _)

theorem addressFromStr_toChecksumString (keccak : Keccak) (address : EvmAddress) :
    addressFromStr keccak (toChecksumString keccak address) = .ok address := by
  have htext : (toChecksumString keccak address).toList =
      '0' :: 'x' :: checksumDigits keccak address := String.toList_ofList
  have hbytes : decodeFixed 20 (toChecksumString keccak address) = .ok address :=
    decodeFixed_eq_ok.mpr ⟨_, htext, decodePairs_checksumDigits keccak address⟩
  simp only [addressFromStr, hbytes, bind_eq_ok, mapError_eq_ok, require_eq_ok, exists_unit,
    pure_eq_ok]
  exact ⟨address, rfl, fun _ => rfl, rfl⟩

/-- The text of an address. Its canonical spelling is the checksummed one. -/
def addressText (keccak : Keccak) : Spelling String EvmAddressError EvmAddress where
  read := addressFromStr keccak
  write := toChecksumString keccak
  read_write := addressFromStr_toChecksumString keccak

/-! ## Amounts -/

/-- A `u128`, as `RobinhoodAtomic` holds it. -/
abbrev RobinhoodAtomic := Fin (2 ^ 128)

/-- What `parse` takes off before the digits. -/
def stripPlus : List Char → List Char
  | '+' :: digits => digits
  | digits => digits

/-- `str::parse::<u128>`. Its errors are not told apart. -/
def parseU128 (s : String) : Except Unit RobinhoodAtomic := do
  let digits := stripPlus s.toList
  require (digits ≠ [] ∧ digits.all Char.isDigit) ()
  let n := Nat.ofDigitChars 10 digits 0
  if h : n < 2 ^ 128 then .ok ⟨n, h⟩ else .error ()

/-- `to_string` of an amount. -/
def amountToString (amount : RobinhoodAtomic) : String := toString amount.val

theorem stripPlus_toDigits (n : ℕ) : stripPlus (Nat.toDigits 10 n) = Nat.toDigits 10 n := by
  unfold stripPlus
  split
  case h_1 digits h =>
    have hplus : '+' ∈ Nat.toDigits 10 n := h ▸ List.mem_cons_self
    exact absurd (Nat.isDigit_of_mem_toDigits (by decide) (by decide) hplus) (by decide)
  case h_2 => rfl

theorem parseU128_amountToString (amount : RobinhoodAtomic) :
    parseU128 (amountToString amount) = .ok amount := by
  have htext : (amountToString amount).toList = Nat.toDigits 10 amount.val := Nat.toList_repr
  have hdigits : ∀ c ∈ Nat.toDigits 10 amount.val, c.isDigit := fun c hc =>
    Nat.isDigit_of_mem_toDigits (by decide) (by decide) hc
  have hvalue : Nat.ofDigitChars 10 (Nat.toDigits 10 amount.val) 0 = amount.val :=
    Nat.ofDigitChars_ten_toDigits
  simp only [parseU128, htext, stripPlus_toDigits, bind_eq_ok, require_eq_ok, exists_unit]
  refine ⟨⟨Nat.toDigits_ne_nil, List.all_eq_true.mpr hdigits⟩, ?_⟩
  rw [dif_pos (by rw [hvalue]; exact amount.isLt)]
  exact congrArg Except.ok (Fin.ext hvalue)

/-- The text of an amount, in decimal. -/
def amountText : Spelling String Unit RobinhoodAtomic where
  read := parseU128
  write := amountToString
  read_write := parseU128_amountToString

end Service.Robinhood
