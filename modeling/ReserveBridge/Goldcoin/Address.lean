-- SUMMARY: Base58Check addresses: the codec with its digit arithmetic in place, which gives back every byte string, and the texts it accepts, of which the ASCII ones are canonical.
import ReserveBridge.Lib.Guard
import ReserveBridge.Lib.Radix

/-!
# Addresses

`service/src/goldcoin/address.rs`. A text is decoded by characters and encoded
from bytes. The digits of the number are kept least significant first and changed
in place. The checksum is a parameter.
-/

namespace Goldcoin
open Guard

/-! ## Networks -/

inductive Network
  | mainnet
  | testnet
  deriving DecidableEq, Repr

def Network.p2pkhVersion : Network → UInt8
  | .mainnet => 0x20
  | .testnet => 0x6f

def Network.p2shVersion : Network → UInt8
  | .mainnet => 0x32
  | .testnet => 0x3a

inductive AddressError
  | empty
  | invalidChar (c : Char)
  | wrongLength (length : ℕ)
  | badChecksum
  | wrongVersion (expected actual : UInt8)
  /-- A carry does not fit in 32 bits: the call does not return. -/
  | overflow
  deriving DecidableEq, Repr

/-! ## The digits -/

def alphabet : List UInt8 :=
  ['1', '2', '3', '4', '5', '6', '7', '8', '9', 'A', 'B', 'C', 'D', 'E', 'F', 'G', 'H',
    'J', 'K', 'L', 'M', 'N', 'P', 'Q', 'R', 'S', 'T', 'U', 'V', 'W', 'X', 'Y', 'Z',
    'a', 'b', 'c', 'd', 'e', 'f', 'g', 'h', 'i', 'j', 'k', 'm', 'n', 'o', 'p', 'q', 'r',
    's', 't', 'u', 'v', 'w', 'x', 'y', 'z'].map fun c => UInt8.ofNat c.toNat

/-- An addition of the `u32` carry. Nothing is made of a sum outside its range,
which no digits reach. -/
def checkedCarry (carry : ℕ) : Option ℕ := if carry < 2 ^ 32 then some carry else none

/-- The digits that a carry becomes. A `u32` is used up after 32 divisions. -/
def pushCarry (base : ℕ) : ℕ → ℕ → List UInt8
  | 0, _ => []
  | rounds + 1, carry =>
    if carry = 0 then [] else UInt8.ofNat (carry % base) :: pushCarry base rounds (carry / base)

/-- The loops over the digits, in which each is multiplied and the carry added. -/
def addDigit (base factor carry : ℕ) : List UInt8 → Option (List UInt8)
  | [] => some (pushCarry base 32 carry)
  | d :: digits => do
    let carry ← checkedCarry (carry + d.toNat * factor)
    let digits ← addDigit base factor (carry / base) digits
    return UInt8.ofNat (carry % base) :: digits

/-! ## Base58 -/

def encodeDigits (bytes : List UInt8) : Option (List UInt8) :=
  bytes.foldlM (fun digits byte => addDigit 58 256 byte.toNat digits) []

/-- The text of ASCII bytes. -/
def fromAscii (bytes : List UInt8) : String := String.ofList (bytes.map fun b => Char.ofNat b.toNat)

/-- An index out of the alphabet does not return. -/
def base58Encode (bytes : List UInt8) : Option String := do
  let leadingZeros := (bytes.takeWhile (· = 0)).length
  let digits ← encodeDigits bytes
  let symbols ← digits.reverse.mapM fun d => alphabet[d.toNat]?
  return fromAscii (List.replicate leadingZeros (alphabet.headD 0) ++ symbols)

/-- The position of `c as u8` in the alphabet. -/
def digitOf (c : Char) : Option ℕ := alphabet.findIdx? (· = UInt8.ofNat c.toNat)

def decodeChar (bytes : List UInt8) (c : Char) : Except AddressError (List UInt8) := do
  let digit ← orFail (digitOf c) (.invalidChar c)
  orFail (addDigit 256 58 digit bytes) .overflow

def decodeDigits (chars : List Char) : Except AddressError (List UInt8) := chars.foldlM decodeChar []

/-- `str::bytes`. -/
def utf8Bytes (chars : List Char) : List UInt8 := chars.flatMap String.utf8EncodeChar

def base58Decode (s : String) : Except AddressError (List UInt8) := do
  require (s.toList ≠ []) .empty
  let leadingOnes := ((utf8Bytes s.toList).takeWhile (· = 0x31)).length
  let bytes ← decodeDigits s.toList
  return List.replicate leadingOnes 0 ++ bytes.reverse

/-! ## Base58Check -/

section Check

variable (checksum : List UInt8 → Vector UInt8 4)

def base58checkEncode (version : UInt8) (hash : Vector UInt8 20) : Option String :=
  let payload := version :: hash.toList
  base58Encode (payload ++ (checksum payload).toList)

def base58checkDecode (s : String) : Except AddressError (UInt8 × Vector UInt8 20) := do
  let decoded ← base58Decode s
  if h : decoded.length = 25 then do
    let payload := decoded.take 21
    require ((checksum payload).toList = decoded.drop 21) .badChecksum
    return (payload.headD 0, ⟨payload.tail.toArray, by simp [payload, h]⟩)
  else .error (.wrongLength decoded.length)

/-- The address of a hash under a version. -/
def encodeVersion (version : UInt8) (hash : Vector UInt8 20) : Except AddressError String :=
  orFail (base58checkEncode checksum version hash) .overflow

/-- The hash of an address with an expected version. -/
def decodeVersion (expected : UInt8) (s : String) : Except AddressError (Vector UInt8 20) := do
  let (version, hash) ← base58checkDecode checksum s
  require (version = expected) (.wrongVersion expected version)
  return hash

def encodeP2pkh (network : Network) := encodeVersion checksum network.p2pkhVersion
def decodeP2pkh (network : Network) := decodeVersion checksum network.p2pkhVersion
def encodeP2sh (network : Network) := encodeVersion checksum network.p2shVersion
def decodeP2sh (network : Network) := decodeVersion checksum network.p2shVersion

def canonicalStandardAddress (network : Network) (address : String) : Except AddressError String :=
  match decodeP2pkh checksum network address with
  | .ok hash => encodeP2pkh checksum network hash
  | .error _ => do
    let hash ← decodeP2sh checksum network address
    encodeP2sh checksum network hash

end Check

/-! ## The digit arithmetic -/

section Arithmetic

variable {base factor carry : ℕ}

/-- A digit fits in a byte. -/
theorem toNat_digit (hbase : 1 < base) (hbyte : base ≤ 256) (n : ℕ) :
    (UInt8.ofNat (n % base)).toNat = n % base := by
  apply UInt8.toNat_ofNat_of_lt'
  have hlt := Nat.mod_lt n (by omega : 0 < base)
  rw [UInt8.size]
  omega

theorem map_pushCarry (hbase : 1 < base) (hbyte : base ≤ 256) {rounds : ℕ} (h : carry < 2 ^ rounds) :
    (pushCarry base rounds carry).map UInt8.toNat = Nat.digits base carry := by
  induction rounds generalizing carry with
  | zero =>
    obtain rfl : carry = 0 := by simpa using h
    rw [Nat.digits_zero]
    rfl
  | succ rounds ih =>
    rw [pushCarry]
    split_ifs with hzero
    · rw [hzero, Nat.digits_zero]
      rfl
    · have hdiv : carry / base < 2 ^ rounds := by
        rw [Nat.div_lt_iff_lt_mul (by omega)]
        calc carry < 2 ^ rounds * 2 := by rwa [← Nat.pow_succ]
          _ ≤ 2 ^ rounds * base := Nat.mul_le_mul_left _ hbase
      rw [List.map_cons, toNat_digit hbase hbyte, ih hdiv, Nat.digits_eq_cons_digits_div hbase hzero]

/-- A pass over the digits is exact: the carry stays below 16 bits, and every digit
fits in a byte. -/
theorem addDigit_eq (hbase : 1 < base) (hbyte : base ≤ 256) (hfactor : factor ≤ 256)
    (hcarry : carry < 2 ^ 16) (digits : List UInt8) :
    ∃ digits', addDigit base factor carry digits = some digits' ∧
      digits'.map UInt8.toNat = Radix.mulAdd base factor carry (digits.map UInt8.toNat) := by
  induction digits generalizing carry with
  | nil =>
    have hpush := map_pushCarry hbase hbyte (hcarry.trans (by decide : 2 ^ 16 < 2 ^ 32))
    exact ⟨_, rfl, by rw [hpush]; rfl⟩
  | cons d digits ih =>
    have hd : d.toNat < 256 := d.toNat_lt
    have hproduct : d.toNat * factor ≤ 255 * 256 := Nat.mul_le_mul (by omega) hfactor
    have hnext : (carry + d.toNat * factor) / base < 2 ^ 16 := by
      rw [Nat.div_lt_iff_lt_mul (by omega)]
      calc carry + d.toNat * factor < 2 ^ 16 * 2 := by omega
        _ ≤ 2 ^ 16 * base := Nat.mul_le_mul_left _ hbase
    obtain ⟨digits', hdigits, hmap⟩ := ih hnext
    have hchecked : checkedCarry (carry + d.toNat * factor) = some (carry + d.toNat * factor) :=
      if_pos (by omega)
    refine ⟨UInt8.ofNat ((carry + d.toNat * factor) % base) :: digits', ?_, ?_⟩
    · simp only [addDigit, hchecked, hdigits, Option.bind_eq_bind, Option.bind_some]
      rfl
    · rw [List.map_cons, toNat_digit hbase hbyte, hmap, List.map_cons, Radix.mulAdd]

end Arithmetic

/-- The bytes as numbers. -/
abbrev naturals (bytes : List UInt8) : List ℕ := bytes.map UInt8.toNat

theorem naturals_nil : naturals [] = [] := rfl

theorem naturals_cons (b : UInt8) (bytes : List UInt8) :
    naturals (b :: bytes) = b.toNat :: naturals bytes := rfl

theorem naturals_append (bytes bytes' : List UInt8) :
    naturals (bytes ++ bytes') = naturals bytes ++ naturals bytes' := List.map_append

theorem naturals_reverse (bytes : List UInt8) : naturals bytes.reverse = (naturals bytes).reverse :=
  List.map_reverse

theorem naturals_inj {bytes bytes' : List UInt8} : naturals bytes = naturals bytes' ↔ bytes = bytes' :=
  List.map_inj_right fun _ _ => UInt8.toNat_inj.mp

/-- Numbers below 256 as bytes. -/
theorem naturals_map_ofNat {ns : List ℕ} (h : ∀ n ∈ ns, n < 256) : naturals (ns.map UInt8.ofNat) = ns := by
  rw [naturals, List.map_map]
  exact (List.map_congr_left fun n hn => UInt8.toNat_ofNat_of_lt' (h n hn)).trans (List.map_id _)

theorem mem_naturals_lt {bytes : List UInt8} : ∀ n ∈ naturals bytes, n < 256 := by
  intro n hn
  obtain ⟨b, -, rfl⟩ := List.mem_map.mp hn
  exact b.toNat_lt

/-- The digits of the bytes are those of their value. -/
theorem encodeDigits_eq (bytes : List UInt8) : ∃ digits, encodeDigits bytes = some digits ∧
    naturals digits = Nat.digits 58 (Radix.value 256 (naturals bytes)) := by
  have hfold (acc : List UInt8) : ∃ digits,
      bytes.foldlM (fun digits byte => addDigit 58 256 byte.toNat digits) acc = some digits ∧
      naturals digits =
        (naturals bytes).foldl (fun acc d => Radix.mulAdd 58 256 d acc) (naturals acc) := by
    induction bytes generalizing acc with
    | nil => exact ⟨acc, rfl, rfl⟩
    | cons byte bytes ih =>
      obtain ⟨next, hnext, hmap⟩ := addDigit_eq (by decide : 1 < 58) (by decide) (le_refl 256)
        (byte.toNat_lt.trans (by decide : 2 ^ 8 < 2 ^ 16)) acc
      obtain ⟨digits, hdigits, hrest⟩ := ih next
      refine ⟨digits, ?_, ?_⟩
      · rw [List.foldlM_cons, hnext]
        exact hdigits
      · rw [hrest, naturals_cons, List.foldl_cons, ← hmap]
  obtain ⟨digits, hdigits, hmap⟩ := hfold []
  refine ⟨digits, hdigits, ?_⟩
  rw [hmap, naturals_nil, Radix.foldl_mulAdd (by decide) (by decide)]

theorem length_alphabet : alphabet.length = 58 := rfl

theorem digitOf_lt {c : Char} {d : ℕ} (h : digitOf c = some d) : d < 58 := by
  obtain ⟨hlt, -⟩ := List.findIdx?_eq_some_iff_getElem.mp h
  rwa [length_alphabet] at hlt

/-- A character of the alphabet is added without an overflow. -/
theorem decodeChar_eq {c : Char} {d : ℕ} (h : digitOf c = some d) (bytes : List UInt8) :
    ∃ next, decodeChar bytes c = .ok next ∧
      naturals next = Radix.mulAdd 256 58 d (naturals bytes) := by
  obtain ⟨next, hnext, hmap⟩ := addDigit_eq (by decide : 1 < 256) (le_refl 256)
    (by decide : 58 ≤ 256) ((digitOf_lt h).trans (by decide : 58 < 2 ^ 16)) bytes
  refine ⟨next, ?_, hmap⟩
  rw [decodeChar, h]
  simp only [bind_eq_ok, orFail_eq_ok]
  exact ⟨d, rfl, hnext⟩

theorem digitOf_of_decodeChar {c : Char} {bytes next : List UInt8}
    (h : decodeChar bytes c = .ok next) : ∃ d, digitOf c = some d := by
  simp only [decodeChar, bind_eq_ok, orFail_eq_ok] at h
  obtain ⟨d, hd, -⟩ := h
  exact ⟨d, hd⟩

theorem foldlM_decodeChar_eq_ok {chars : List Char} {acc bytes : List UInt8} :
    chars.foldlM decodeChar acc = .ok bytes ↔ ∃ digits, chars.mapM digitOf = some digits ∧
      naturals bytes = digits.foldl (fun acc d => Radix.mulAdd 256 58 d acc) (naturals acc) := by
  induction chars generalizing acc with
  | nil =>
    rw [List.foldlM_nil, pure_eq_ok, List.mapM_nil]
    constructor
    · rintro rfl
      exact ⟨[], rfl, rfl⟩
    · rintro ⟨_, h, hbytes⟩
      obtain rfl := Option.some.inj h
      exact (naturals_inj.mp hbytes).symm
  | cons c chars ih =>
    simp only [List.foldlM_cons, bind_eq_ok, List.mapM_cons, Option.bind_eq_bind,
      Option.bind_eq_some_iff, ih]
    constructor
    · rintro ⟨next, hnext, digits, hdigits, hbytes⟩
      obtain ⟨d, hd⟩ := digitOf_of_decodeChar hnext
      obtain ⟨next', hnext', hmap⟩ := decodeChar_eq hd acc
      obtain rfl := Except.ok.inj (hnext.symm.trans hnext')
      refine ⟨d :: digits, ⟨d, hd, digits, hdigits, rfl⟩, ?_⟩
      rw [hbytes, hmap, List.foldl_cons]
    · rintro ⟨_, ⟨d, hd, digits, hdigits, h⟩, hbytes⟩
      obtain rfl := Option.some.inj h
      obtain ⟨next, hnext, hmap⟩ := decodeChar_eq hd acc
      refine ⟨next, hnext, digits, hdigits, ?_⟩
      rw [hbytes, hmap, List.foldl_cons]

/-- The bytes of a text are those of the value of its digits. -/
theorem decodeDigits_eq_ok {chars : List Char} {bytes : List UInt8} :
    decodeDigits chars = .ok bytes ↔ ∃ digits, chars.mapM digitOf = some digits ∧
      naturals bytes = Nat.digits 256 (Radix.value 58 digits) := by
  rw [decodeDigits, foldlM_decodeChar_eq_ok]
  apply exists_congr
  intro digits
  rw [naturals_nil, Radix.foldl_mulAdd (by decide) (by decide)]

theorem decodeDigits_ne_overflow {chars : List Char} {acc : List UInt8} :
    chars.foldlM decodeChar acc ≠ .error .overflow := by
  induction chars generalizing acc with
  | nil =>
    intro h
    cases h
  | cons c chars ih =>
    intro h
    rw [List.foldlM_cons, bind_eq_error] at h
    rcases h with h | ⟨next, -, h⟩
    · cases hdigit : digitOf c with
      | none =>
        rw [decodeChar, hdigit, orFail] at h
        cases h
      | some d =>
        obtain ⟨next, hnext, -⟩ := decodeChar_eq hdigit acc
        rw [hnext] at h
        cases h
    · exact ih h

/-! ## Texts -/

/-- `char::is_ascii` for every character. -/
def IsAscii (s : String) : Prop := ∀ c ∈ s.toList, c.toNat < 128

/-- The character of a digit. -/
def symbol (d : ℕ) : Char := Char.ofNat (alphabet[d]?.getD 0).toNat

/-- The symbols stand in the alphabet in the order of their codes. -/
theorem sorted_alphabet : (alphabet.map UInt8.toNat).IsChain (· < ·) := by decide

theorem nodup_alphabet : alphabet.Nodup := by
  have hlt : (alphabet.map UInt8.toNat).Pairwise (· < ·) := sorted_alphabet.pairwise
  exact List.Nodup.of_map UInt8.toNat (hlt.imp Nat.ne_of_lt)

theorem alphabet_lt {byte : UInt8} (h : byte ∈ alphabet) : byte.toNat < 128 := by
  have hall : alphabet.all (·.toNat < 128) = true := rfl
  exact of_decide_eq_true (List.all_eq_true.mp hall byte h)

theorem toNat_symbol {d : ℕ} (h : d < alphabet.length) : (symbol d).toNat = alphabet[d].toNat := by
  have hlt := alphabet_lt (List.getElem_mem h)
  have hvalid : alphabet[d].toNat.isValidChar := .inl (hlt.trans (by decide))
  rw [symbol, List.getElem?_eq_getElem h, Option.getD_some, Char.ofNat, dif_pos hvalid]
  rfl

theorem symbol_lt {d : ℕ} (h : d < 58) : (symbol d).toNat < 128 := by
  rw [toNat_symbol (by rwa [length_alphabet])]
  exact alphabet_lt (List.getElem_mem _)

theorem ofNat_symbol {d : ℕ} (h : d < alphabet.length) :
    UInt8.ofNat (symbol d).toNat = alphabet[d] := by
  rw [toNat_symbol h, UInt8.ofNat_toNat]

theorem digitOf_symbol {d : ℕ} (h : d < 58) : digitOf (symbol d) = some d := by
  have hd : d < alphabet.length := by rwa [length_alphabet]
  refine List.findIdx?_eq_some_iff_getElem.mpr ⟨hd, ?_, ?_⟩
  · exact decide_eq_true (ofNat_symbol hd).symm
  · intro i hi heq
    rw [ofNat_symbol hd] at heq
    exact hi.ne ((List.Nodup.getElem_inj_iff nodup_alphabet).mp (of_decide_eq_true heq))

theorem alphabet_eq {d : ℕ} (h : d < 58) : ∃ byte, alphabet[d]? = some byte ∧
    Char.ofNat byte.toNat = symbol d := by
  have hlt : d < alphabet.length := by rwa [length_alphabet]
  refine ⟨alphabet[d], List.getElem?_eq_getElem hlt, ?_⟩
  rw [symbol, List.getElem?_eq_getElem hlt]
  rfl

/-- An ASCII character is the symbol of its digit. -/
theorem eq_symbol {c : Char} {d : ℕ} (hascii : c.toNat < 128) (h : digitOf c = some d) :
    c = symbol d := by
  obtain ⟨hlt, hbyte, -⟩ := List.findIdx?_eq_some_iff_getElem.mp h
  have hbyte : alphabet[d] = UInt8.ofNat c.toNat := of_decide_eq_true hbyte
  have hnat : (UInt8.ofNat c.toNat).toNat = c.toNat :=
    UInt8.toNat_ofNat_of_lt' (by rw [UInt8.size]; omega)
  rw [symbol, List.getElem?_eq_getElem hlt, Option.getD_some, hbyte, hnat, Char.ofNat_toNat]

theorem utf8EncodeChar_ascii {c : Char} (h : c.toNat < 128) :
    String.utf8EncodeChar c = [UInt8.ofNat c.toNat] := by
  have hsize : c.utf8Size = 1 := by
    rw [Char.utf8Size_eq_one_iff, UInt32.le_iff_toNat_le]
    exact Nat.le_of_lt_succ h
  rw [String.utf8EncodeChar_eq_singleton hsize]
  congr 1

theorem symbol_eq_one {d : ℕ} (h : d < 58) : UInt8.ofNat (symbol d).toNat = 0x31 ↔ d = 0 := by
  have hd : d < alphabet.length := by rwa [length_alphabet]
  have hone : (0x31 : UInt8) = alphabet[0] := rfl
  rw [ofNat_symbol hd, hone, List.Nodup.getElem_inj_iff nodup_alphabet]

/-- The ones that a text of symbols starts with are its leading zeros. -/
theorem leadingOnes_symbols {digits : List ℕ} (h : ∀ d ∈ digits, d < 58) :
    ((utf8Bytes (digits.map symbol)).takeWhile (· = 0x31)).length = Radix.leadingZeros digits := by
  induction digits with
  | nil => rfl
  | cons d digits ih =>
    rw [List.forall_mem_cons] at h
    have hbytes : utf8Bytes ((d :: digits).map symbol) =
        UInt8.ofNat (symbol d).toNat :: utf8Bytes (digits.map symbol) := by
      rw [utf8Bytes, List.map_cons, List.flatMap_cons, utf8EncodeChar_ascii (symbol_lt h.1)]
      rfl
    have hone := symbol_eq_one h.1
    by_cases hd : d = 0
    · rw [hbytes, List.takeWhile_cons_of_pos (by simpa using hone.mpr hd), List.length_cons, ih h.2,
        Radix.leadingZeros, Radix.leadingZeros, List.takeWhile_cons_of_pos (by simpa using hd),
        List.length_cons]
    · rw [hbytes, List.takeWhile_cons_of_neg (by simpa using mt hone.mp hd), Radix.leadingZeros,
        List.takeWhile_cons_of_neg (by simpa using hd), List.length_nil, List.length_nil]

theorem mapM_digitOf_symbols {digits : List ℕ} (h : ∀ d ∈ digits, d < 58) :
    (digits.map symbol).mapM digitOf = some digits := by
  induction digits with
  | nil => rfl
  | cons d digits ih =>
    rw [List.forall_mem_cons] at h
    rw [List.map_cons, List.mapM_cons, digitOf_symbol h.1, ih h.2]
    rfl

theorem mapM_digitOf_lt {chars : List Char} {digits : List ℕ}
    (h : chars.mapM digitOf = some digits) : ∀ d ∈ digits, d < 58 := by
  induction chars generalizing digits with
  | nil =>
    obtain rfl := Option.some.inj h
    exact fun d hd => absurd hd List.not_mem_nil
  | cons c chars ih =>
    simp only [List.mapM_cons, Option.bind_eq_bind, Option.bind_eq_some_iff] at h
    obtain ⟨d, hd, rest, hrest, h⟩ := h
    obtain rfl := Option.some.inj h
    rw [List.forall_mem_cons]
    exact ⟨digitOf_lt hd, ih hrest⟩

/-- ASCII characters that have digits are their symbols. -/
theorem eq_map_symbol {chars : List Char} {digits : List ℕ} (hascii : ∀ c ∈ chars, c.toNat < 128)
    (h : chars.mapM digitOf = some digits) : chars = digits.map symbol := by
  induction chars generalizing digits with
  | nil =>
    obtain rfl := Option.some.inj h
    rfl
  | cons c chars ih =>
    simp only [List.mapM_cons, Option.bind_eq_bind, Option.bind_eq_some_iff] at h
    obtain ⟨d, hd, rest, hrest, h⟩ := h
    obtain rfl := Option.some.inj h
    rw [List.forall_mem_cons] at hascii
    rw [List.map_cons, ← eq_symbol hascii.1 hd, ← ih hascii.2 hrest]

/-! ## The codec -/

/-- The text of digits, most significant first. -/
def digitText (digits : List ℕ) : String := String.ofList (digits.map symbol)

theorem isAscii_digitText {digits : List ℕ} (h : ∀ d ∈ digits, d < 58) : IsAscii (digitText digits) := by
  intro c hc
  rw [digitText, String.toList_ofList] at hc
  obtain ⟨d, hd, rfl⟩ := List.mem_map.mp hc
  exact symbol_lt (h d hd)

theorem length_takeWhile_zero (bytes : List UInt8) :
    (bytes.takeWhile (· = 0)).length = Radix.leadingZeros (naturals bytes) := by
  have hzero : ((fun n : ℕ => decide (n = 0)) ∘ UInt8.toNat) = fun b : UInt8 => decide (b = 0) := by
    funext b
    exact decide_eq_decide.mpr (UInt8.toNat_inj (b := 0))
  rw [Radix.leadingZeros, List.takeWhile_map, List.length_map, hzero]

/-- The alphabet has a byte for every digit. -/
theorem mapM_alphabet {digits : List UInt8} (h : ∀ d ∈ digits, d.toNat < 58) :
    ∃ symbols, digits.mapM (fun d => alphabet[d.toNat]?) = some symbols ∧
      symbols.map (fun b => Char.ofNat b.toNat) = (naturals digits).map symbol := by
  induction digits with
  | nil => exact ⟨[], rfl, rfl⟩
  | cons d digits ih =>
    rw [List.forall_mem_cons] at h
    obtain ⟨byte, hbyte, hsymbol⟩ := alphabet_eq h.1
    obtain ⟨symbols, hsymbols, hmap⟩ := ih h.2
    refine ⟨byte :: symbols, ?_, ?_⟩
    · rw [List.mapM_cons, hbyte, hsymbols]
      rfl
    · rw [List.map_cons, hsymbol, hmap, naturals_cons, List.map_cons]

/-- The encoder writes the bytes in base 58. -/
theorem base58Encode_eq (bytes : List UInt8) :
    base58Encode bytes = some (digitText (Radix.transcode 256 58 (naturals bytes))) := by
  obtain ⟨digits, hdigits, hmap⟩ := encodeDigits_eq bytes
  have hlt : ∀ d ∈ digits.reverse, d.toNat < 58 := by
    intro d hd
    apply Nat.digits_lt_base (by decide : 1 < 58) (m := Radix.value 256 (naturals bytes))
    rw [← hmap]
    exact List.mem_map_of_mem (List.mem_reverse.mp hd)
  obtain ⟨symbols, hsymbols, hchars⟩ := mapM_alphabet hlt
  have hzero : Char.ofNat (alphabet.headD 0).toNat = symbol 0 := rfl
  simp only [base58Encode, hdigits, hsymbols, Option.bind_eq_bind, Option.bind_some]
  rw [fromAscii, List.map_append, List.map_replicate, hchars, hzero, length_takeWhile_zero,
    naturals_reverse, hmap, digitText, Radix.transcode, List.map_append, List.map_replicate]
  rfl

theorem base58Decode_eq_ok_iff {s : String} {bytes : List UInt8} : base58Decode s = .ok bytes ↔
    s.toList ≠ [] ∧ ∃ number, decodeDigits s.toList = .ok number ∧
      List.replicate ((utf8Bytes s.toList).takeWhile (· = 0x31)).length 0 ++ number.reverse = bytes := by
  simp only [base58Decode, bind_eq_ok, require_eq_ok, exists_unit, pure_eq_ok]

/-- What a text of digits is decoded to. -/
theorem naturals_decoded {digits : List ℕ} {number : List UInt8}
    (hnumber : naturals number = Nat.digits 256 (Radix.value 58 digits)) :
    naturals (List.replicate (Radix.leadingZeros digits) 0 ++ number.reverse) =
      Radix.transcode 58 256 digits := by
  rw [naturals_append, naturals_reverse, hnumber, Radix.transcode, naturals, List.map_replicate]
  rfl

/-- The decoder reads a text of digits in base 58. -/
theorem base58Decode_digitText {digits : List ℕ} (hne : digits ≠ []) (hdigits : ∀ d ∈ digits, d < 58) :
    ∃ bytes, base58Decode (digitText digits) = .ok bytes ∧
      naturals bytes = Radix.transcode 58 256 digits := by
  have hnumber : naturals ((Nat.digits 256 (Radix.value 58 digits)).map UInt8.ofNat) =
      Nat.digits 256 (Radix.value 58 digits) :=
    naturals_map_ofNat fun d hd => Nat.digits_lt_base (by decide) hd
  refine ⟨_, base58Decode_eq_ok_iff.mpr ⟨?_, _, decodeDigits_eq_ok.mpr ⟨digits, ?_, hnumber⟩, rfl⟩, ?_⟩
  · rw [digitText, String.toList_ofList]
    simpa using hne
  · rw [digitText, String.toList_ofList, mapM_digitOf_symbols hdigits]
  · rw [digitText, String.toList_ofList, leadingOnes_symbols hdigits]
    exact naturals_decoded hnumber

/-- What is decoded from an ASCII text are digits in base 58. -/
theorem base58Decode_eq_ok {s : String} {bytes : List UInt8} (h : base58Decode s = .ok bytes)
    (hascii : IsAscii s) : ∃ digits, (∀ d ∈ digits, d < 58) ∧ s = digitText digits ∧
      naturals bytes = Radix.transcode 58 256 digits := by
  obtain ⟨-, number, hdecode, rfl⟩ := base58Decode_eq_ok_iff.mp h
  obtain ⟨digits, hmapM, hnumber⟩ := decodeDigits_eq_ok.mp hdecode
  have hchars := eq_map_symbol hascii hmapM
  have hlt := mapM_digitOf_lt hmapM
  refine ⟨digits, hlt, ?_, ?_⟩
  · rw [digitText, ← hchars, String.ofList_toList]
  · rw [hchars, leadingOnes_symbols hlt]
    exact naturals_decoded hnumber

/-- Encoding and decoding gives back the bytes. -/
theorem base58Decode_base58Encode {bytes : List UInt8} (hne : bytes ≠ []) :
    ∃ text, base58Encode bytes = some text ∧ base58Decode text = .ok bytes := by
  have hlt : ∀ d ∈ Radix.transcode 256 58 (naturals bytes), d < 58 := fun d hd =>
    Radix.mem_transcode_lt (by decide) hd
  have hdigits : Radix.transcode 256 58 (naturals bytes) ≠ [] :=
    Radix.transcode_ne_nil (by decide) mem_naturals_lt (by simpa using hne)
  obtain ⟨decoded, hdecode, hnaturals⟩ := base58Decode_digitText hdigits hlt
  rw [Radix.transcode_transcode (by decide) mem_naturals_lt, naturals_inj] at hnaturals
  rw [hnaturals] at hdecode
  exact ⟨_, base58Encode_eq bytes, hdecode⟩

/-- Decoding an ASCII text and encoding gives back the text. -/
theorem base58Encode_base58Decode {s : String} {bytes : List UInt8} (h : base58Decode s = .ok bytes)
    (hascii : IsAscii s) : base58Encode bytes = some s := by
  obtain ⟨digits, hlt, rfl, hnaturals⟩ := base58Decode_eq_ok h hascii
  rw [base58Encode_eq, hnaturals, Radix.transcode_transcode (by decide) hlt]

theorem isAscii_base58Encode {bytes : List UInt8} {s : String} (h : base58Encode bytes = some s) :
    IsAscii s := by
  rw [base58Encode_eq] at h
  obtain rfl := Option.some.inj h
  exact isAscii_digitText fun d hd => Radix.mem_transcode_lt (by decide) hd

/-! ## Addresses -/

section Addresses

variable (checksum : List UInt8 → Vector UInt8 4)

/-- The bytes of an address. -/
def addressBytes (version : UInt8) (hash : Vector UInt8 20) : List UInt8 :=
  (version :: hash.toList) ++ (checksum (version :: hash.toList)).toList

variable {checksum}

theorem headD_cons_tail {bytes : List UInt8} (h : bytes ≠ []) : bytes.headD 0 :: bytes.tail = bytes := by
  cases bytes with
  | nil => exact absurd rfl h
  | cons b rest => rfl

theorem base58checkDecode_eq_ok {s : String} {version : UInt8} {hash : Vector UInt8 20} :
    base58checkDecode checksum s = .ok (version, hash) ↔
      base58Decode s = .ok (addressBytes checksum version hash) := by
  constructor
  · intro h
    obtain ⟨decoded, hdecoded, h⟩ := bind_eq_ok.mp h
    split_ifs at h with hlength
    simp only [bind_eq_ok, require_eq_ok, exists_unit, pure_eq_ok, Prod.mk.injEq] at h
    obtain ⟨hchecksum, hversion, hhash⟩ := h
    have hne : decoded.take 21 ≠ [] := by
      intro hnil
      have hempty := congrArg List.length hnil
      rw [List.length_take, hlength, List.length_nil] at hempty
      cases hempty
    have hpayload : decoded.take 21 = version :: hash.toList := by
      rw [← hversion, ← hhash]
      exact (headD_cons_tail hne).symm
    rw [hdecoded, addressBytes, ← hpayload, hchecksum, List.take_append_drop]
  · intro h
    have hlength : (addressBytes checksum version hash).length = 25 := by simp [addressBytes]
    have htake : (addressBytes checksum version hash).take 21 = version :: hash.toList := by
      rw [addressBytes, List.take_append_of_le_length (by simp), List.take_of_length_le (by simp)]
    have hdrop : (addressBytes checksum version hash).drop 21 =
        (checksum (version :: hash.toList)).toList := by
      rw [addressBytes, List.drop_append_of_le_length (by simp), List.drop_of_length_le (by simp),
        List.nil_append]
    rw [base58checkDecode, h]
    refine bind_eq_ok.mpr ⟨_, rfl, ?_⟩
    rw [dif_pos hlength]
    simp only [htake, hdrop, bind_eq_ok, require_eq_ok, exists_unit, pure_eq_ok, true_and,
      List.headD_cons, List.tail_cons]
    rfl

/-- Every version and hash has an address, which is ASCII. -/
theorem exists_address (checksum : List UInt8 → Vector UInt8 4) (version : UInt8)
    (hash : Vector UInt8 20) : ∃ text, base58checkEncode checksum version hash = some text ∧
      base58checkDecode checksum text = .ok (version, hash) ∧ IsAscii text := by
  obtain ⟨text, hencode, hdecode⟩ := base58Decode_base58Encode
    (List.cons_ne_nil version (hash.toList ++ (checksum (version :: hash.toList)).toList))
  exact ⟨text, hencode, base58checkDecode_eq_ok.mpr hdecode, isAscii_base58Encode hencode⟩

/-- An accepted text is the address of what was decoded exactly when it is ASCII. -/
theorem base58checkEncode_eq_some_iff {s : String} {version : UInt8} {hash : Vector UInt8 20}
    (h : base58checkDecode checksum s = .ok (version, hash)) :
    base58checkEncode checksum version hash = some s ↔ IsAscii s :=
  ⟨isAscii_base58Encode, base58Encode_base58Decode (base58checkDecode_eq_ok.mp h)⟩

theorem decodeVersion_eq_ok {expected : UInt8} {s : String} {hash : Vector UInt8 20} :
    decodeVersion checksum expected s = .ok hash ↔
      base58checkDecode checksum s = .ok (expected, hash) := by
  simp only [decodeVersion, bind_eq_ok, require_eq_ok, exists_unit, pure_eq_ok, Prod.exists]
  constructor
  · rintro ⟨version, hash', h, rfl, rfl⟩
    exact h
  · intro h
    exact ⟨expected, hash, h, rfl, rfl⟩

theorem encodeVersion_eq_ok {version : UInt8} {s : String} {hash : Vector UInt8 20} :
    encodeVersion checksum version hash = .ok s ↔
      base58checkEncode checksum version hash = some s := orFail_eq_ok

/-- What is returned as the canonical text is the address of an accepted text. -/
theorem canonicalStandardAddress_eq_ok {network : Network} {s t : String}
    (h : canonicalStandardAddress checksum network s = .ok t) :
    ∃ version hash, base58checkDecode checksum s = .ok (version, hash) ∧
      base58checkEncode checksum version hash = some t := by
  unfold canonicalStandardAddress at h
  split at h
  · rename_i hash hdecode
    exact ⟨_, hash, decodeVersion_eq_ok.mp hdecode, encodeVersion_eq_ok.mp h⟩
  · obtain ⟨hash, hdecode, h⟩ := bind_eq_ok.mp h
    exact ⟨_, hash, decodeVersion_eq_ok.mp hdecode, encodeVersion_eq_ok.mp h⟩

end Addresses

/-- Every byte string but the empty one is encoded and decoded back. The digits of
both conversions are exactly those of the number in the other base, below the
base, and no carry overflows, for any bytes and any text. For every checksum,
every version and hash are encoded and decoded back. -/
theorem base58_round_trip :
    (∀ bytes : List UInt8, bytes ≠ [] →
      ∃ text, base58Encode bytes = some text ∧ base58Decode text = .ok bytes) ∧
    (∀ bytes : List UInt8, ∃ digits, encodeDigits bytes = some digits ∧
      naturals digits = Nat.digits 58 (Radix.value 256 (naturals bytes)) ∧
      ∀ d ∈ digits, d.toNat < 58) ∧
    (∀ (text : String) (digits : List ℕ), text.toList.mapM digitOf = some digits →
      ∃ number, decodeDigits text.toList = .ok number ∧
        naturals number = Nat.digits 256 (Radix.value 58 digits)) ∧
    (∀ text : String, base58Decode text ≠ .error .overflow) ∧
    ∀ (checksum : List UInt8 → Vector UInt8 4) (version : UInt8) (hash : Vector UInt8 20),
      ∃ text, base58checkEncode checksum version hash = some text ∧
        base58checkDecode checksum text = .ok (version, hash) := by
  refine ⟨fun bytes => base58Decode_base58Encode, ?_, ?_, ?_, ?_⟩
  · intro bytes
    obtain ⟨digits, hdigits, hmap⟩ := encodeDigits_eq bytes
    refine ⟨digits, hdigits, hmap, fun d hd => ?_⟩
    apply Nat.digits_lt_base (by decide : 1 < 58) (m := Radix.value 256 (naturals bytes))
    rw [← hmap]
    exact List.mem_map_of_mem hd
  · intro text digits hdigits
    have hnumber : naturals ((Nat.digits 256 (Radix.value 58 digits)).map UInt8.ofNat) =
        Nat.digits 256 (Radix.value 58 digits) :=
      naturals_map_ofNat fun d hd => Nat.digits_lt_base (by decide) hd
    exact ⟨_, decodeDigits_eq_ok.mpr ⟨digits, hdigits, hnumber⟩, hnumber⟩
  · intro text h
    rw [base58Decode, bind_eq_error, require_eq_error] at h
    rcases h with ⟨-, h⟩ | ⟨_, -, h⟩
    · cases h
    · rcases bind_eq_error.mp h with h | ⟨_, -, h⟩
      · exact decodeDigits_ne_overflow h
      · cases h
  · intro checksum version hash
    obtain ⟨text, hencode, hdecode, -⟩ := exists_address checksum version hash
    exact ⟨text, hencode, hdecode⟩

theorem base58_round_trip_sample : base58Decode "116" = .ok [0, 0, 5] := by
  obtain ⟨text, hencode, hdecode⟩ := base58_round_trip.1 [0, 0, 5] (by decide)
  have htext : base58Encode [0, 0, 5] = some "116" := by decide +kernel
  rw [hencode] at htext
  obtain rfl := Option.some.inj htext
  exact hdecode

instance (s : String) : Decidable (IsAscii s) :=
  List.decidableBAll (fun c : Char => c.toNat < 128) s.toList

/-- An accepted text re-encodes to itself exactly when all its characters are
ASCII, as an address of any version, of either standard form, and as a canonical
address. Every version and hash have exactly one accepted text that is ASCII. -/
theorem canonical_iff_ascii (checksum : List UInt8 → Vector UInt8 4) :
    (∀ (s : String) (version : UInt8) (hash : Vector UInt8 20),
      base58checkDecode checksum s = .ok (version, hash) →
        (base58checkEncode checksum version hash = some s ↔ IsAscii s)) ∧
    (∀ (network : Network) (s : String) (hash : Vector UInt8 20),
      decodeP2pkh checksum network s = .ok hash →
        (encodeP2pkh checksum network hash = .ok s ↔ IsAscii s)) ∧
    (∀ (network : Network) (s : String) (hash : Vector UInt8 20),
      decodeP2sh checksum network s = .ok hash →
        (encodeP2sh checksum network hash = .ok s ↔ IsAscii s)) ∧
    (∀ (network : Network) (s t : String), canonicalStandardAddress checksum network s = .ok t →
      (t = s ↔ IsAscii s)) ∧
    ∀ (version : UInt8) (hash : Vector UInt8 20),
      ∃! s, IsAscii s ∧ base58checkDecode checksum s = .ok (version, hash) := by
  refine ⟨fun s version hash => base58checkEncode_eq_some_iff, ?_, ?_, ?_, ?_⟩
  · intro network s hash h
    exact encodeVersion_eq_ok.trans (base58checkEncode_eq_some_iff (decodeVersion_eq_ok.mp h))
  · intro network s hash h
    exact encodeVersion_eq_ok.trans (base58checkEncode_eq_some_iff (decodeVersion_eq_ok.mp h))
  · intro network s t h
    obtain ⟨version, hash, hdecode, hencode⟩ := canonicalStandardAddress_eq_ok h
    rw [← base58checkEncode_eq_some_iff hdecode, hencode, Option.some.injEq]
  · intro version hash
    obtain ⟨text, hencode, hdecode, hascii⟩ := exists_address checksum version hash
    refine ⟨text, ⟨hascii, hdecode⟩, ?_⟩
    rintro s ⟨hs, hs'⟩
    have hsame := (base58checkEncode_eq_some_iff hs').mpr hs
    rw [hencode] at hsame
    exact (Option.some.inj hsame).symm

/-- A hash with an address of the main network, and its checksum. -/
def sampleAddressHash : Vector UInt8 20 :=
  #v[0xf4, 0xdf, 0x99, 0xde, 0x08, 0x1e, 0xd2, 0x39, 0xe7, 0x43, 0x1d, 0x34, 0x78, 0xb9, 0x6b, 0xb8,
    0xe7, 0xb4, 0x4f, 0xa9]

def sampleChecksum (_ : List UInt8) : Vector UInt8 4 := #v[0xc0, 0x7a, 0xed, 0x2e]

def sampleAddress : String := "EG95FMYz9Pju3r6z6gA5tNoShHMXGjEHwj"

/-- The address with U+0145 for its first letter. -/
def aliasedAddress : String := "ŅG95FMYz9Pju3r6z6gA5tNoShHMXGjEHwj"

theorem canonical_iff_ascii_sample :
    encodeP2pkh sampleChecksum .mainnet sampleAddressHash = .ok sampleAddress := by
  have hdecode : decodeP2pkh sampleChecksum .mainnet sampleAddress = .ok sampleAddressHash := by
    decide +kernel
  have hascii : IsAscii sampleAddress := by decide +kernel
  exact ((canonical_iff_ascii sampleChecksum).2.1 .mainnet sampleAddress sampleAddressHash
    hdecode).mpr hascii

/-- The other letter is taken for the first one: the text is accepted as the
address, and it is not how the address is written. -/
theorem aliased_accepted :
    decodeP2pkh sampleChecksum .mainnet aliasedAddress = .ok sampleAddressHash ∧
      encodeP2pkh sampleChecksum .mainnet sampleAddressHash ≠ .ok aliasedAddress ∧
      canonicalStandardAddress sampleChecksum .mainnet aliasedAddress = .ok sampleAddress := by
  decide +kernel

end Goldcoin
