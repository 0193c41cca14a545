-- SUMMARY: Recursive length prefixes: nested byte strings and lists, integers without leading zeros, a reference encoder, a strict decoder, and that the decoder reads every encoding back.
import ReserveBridge.Lib.Bytes

/-!
# Recursive length prefix encoding

An item is a byte string or a list of items. A byte below 128 is its own encoding,
anything else follows its length: in the first byte up to 55, in bytes of its own
above. The decoder accepts one encoding of an item only, and an integer is a byte
string without leading zeros.
-/

namespace Rlp
open Bytes

inductive Item
  | bytes (value : List UInt8)
  | list (items : List Item)

/-! ## Integers -/

/-- The byte string has no leading zero. -/
def Minimal (bs : List UInt8) : Prop := bs.head? ≠ some 0

instance (bs : List UInt8) : Decidable (Minimal bs) := inferInstanceAs (Decidable (_ ≠ _))

/-- Without its leading zeros. -/
def trim (bs : List UInt8) : List UInt8 := bs.dropWhile (· = 0)

theorem minimal_trim (bs : List UInt8) : Minimal (trim bs) := by
  intro hhead
  have hfalse := List.head?_dropWhile_not (fun b : UInt8 => decide (b = 0)) bs
  rw [trim] at hhead
  rw [hhead] at hfalse
  exact absurd hfalse (by decide)

theorem beValue_trim (bs : List UInt8) : beValue (trim bs) = beValue bs := by
  induction bs with
  | nil => rfl
  | cons b bs ih =>
    by_cases hb : b = 0
    · subst hb
      have htrim : trim (0 :: bs) = trim bs := List.dropWhile_cons_of_pos (by simp)
      have hvalue : beValue (0 :: bs) = beValue bs := by
        rw [beValue_cons]
        simp
      rw [htrim, hvalue, ih]
    · have htrim : trim (b :: bs) = b :: bs := List.dropWhile_cons_of_neg (by simpa using hb)
      rw [htrim]

/-- The first byte of a minimal string says how long it is. -/
theorem Minimal.le_beValue {b : UInt8} {bs : List UInt8} (h : Minimal (b :: bs)) :
    256 ^ bs.length ≤ beValue (b :: bs) := by
  have hb : 0 < b.toNat := by
    apply Nat.pos_of_ne_zero
    intro hzero
    exact h (congrArg some (UInt8.toNat_inj.mp hzero))
  calc 256 ^ bs.length ≤ b.toNat * 256 ^ bs.length := Nat.le_mul_of_pos_left _ hb
    _ ≤ beValue (b :: bs) := by
      rw [beValue_cons]
      exact Nat.le_add_right _ _

theorem Minimal.length_le {as bs : List UInt8} (h : Minimal as)
    (hvalue : beValue as < 256 ^ bs.length) : as.length ≤ bs.length := by
  cases as with
  | nil => exact Nat.zero_le _
  | cons a as =>
    have hlt : 256 ^ as.length < 256 ^ bs.length := h.le_beValue.trans_lt hvalue
    exact (Nat.pow_lt_pow_iff_right (by decide)).mp hlt

/-- A number has one minimal spelling. -/
theorem Minimal.eq {as bs : List UInt8} (ha : Minimal as) (hb : Minimal bs)
    (h : beValue as = beValue bs) : as = bs := by
  have hlength : as.length = bs.length := by
    apply Nat.le_antisymm
    · apply ha.length_le
      rw [h]
      exact beValue_lt bs
    · apply hb.length_le
      rw [← h]
      exact beValue_lt as
  rw [← beBytes_beValue hlength, h, beBytes_beValue rfl]

/-- The minimal bytes of a number. -/
def natBytes (n : ℕ) : List UInt8 := trim (beBytes (n.log2 / 8 + 1) n)

theorem lt_pow_log2 (n : ℕ) : n < 256 ^ (n.log2 / 8 + 1) := by
  have hexp : n.log2 + 1 ≤ 8 * (n.log2 / 8 + 1) := by omega
  calc n < 2 ^ (n.log2 + 1) := Nat.lt_log2_self
    _ ≤ 2 ^ (8 * (n.log2 / 8 + 1)) := Nat.pow_le_pow_right (by decide) hexp
    _ = 256 ^ (n.log2 / 8 + 1) := by rw [Nat.pow_mul]

theorem beValue_natBytes (n : ℕ) : beValue (natBytes n) = n := by
  rw [natBytes, beValue_trim, beValue_beBytes (lt_pow_log2 n)]

theorem minimal_natBytes (n : ℕ) : Minimal (natBytes n) := minimal_trim _

/-- Trimming gives the minimal bytes. -/
theorem trim_eq (bs : List UInt8) : trim bs = natBytes (beValue bs) := by
  apply (minimal_trim bs).eq (minimal_natBytes _)
  rw [beValue_trim, beValue_natBytes]

theorem length_natBytes_le {k n : ℕ} (h : n < 256 ^ k) : (natBytes n).length ≤ k := by
  have hle := @Minimal.length_le _ (List.replicate k 0) (minimal_natBytes n)
  rw [List.length_replicate, beValue_natBytes] at hle
  exact hle h

/-! ## Encoding -/

/-- The length before a string (`offset` 0x80) or a list (`offset` 0xc0). -/
def header (offset length : ℕ) : List UInt8 :=
  if length ≤ 55 then [UInt8.ofNat (offset + length)]
  else UInt8.ofNat (offset + 55 + (natBytes length).length) :: natBytes length

def encodeString (bs : List UInt8) : List UInt8 :=
  match bs with
  | [b] => if b.toNat < 0x80 then [b] else header 0x80 1 ++ [b]
  | _ => header 0x80 bs.length ++ bs

mutual

def encode : Item → List UInt8
  | .bytes value => encodeString value
  | .list items => header 0xc0 (encodeAll items).length ++ encodeAll items

def encodeAll : List Item → List UInt8
  | [] => []
  | item :: items => encode item ++ encodeAll items

end

theorem encodeAll_eq (items : List Item) : encodeAll items = (items.map encode).flatten := by
  induction items with
  | nil => rfl
  | cons item items ih => rw [encodeAll, ih, List.map_cons, List.flatten_cons]

/-! ## Decoding -/

inductive Header
  | byte (value : UInt8)
  | string (length : ℕ)
  | list (length : ℕ)
  deriving DecidableEq

/-- The first `n` bytes and the rest. -/
def split (n : ℕ) (bs : List UInt8) : Option (List UInt8 × List UInt8) :=
  if n ≤ bs.length then some (bs.take n, bs.drop n) else none

/-- A length in `n` bytes of its own: minimal, and too large for the first byte. -/
def readLength (n : ℕ) (bs : List UInt8) : Option (ℕ × List UInt8) := do
  let (length, rest) ← split n bs
  if Minimal length ∧ 55 < beValue length then some (beValue length, rest) else none

/-- A length whose first byte is `first`. -/
def readSized (offset first : ℕ) (bs : List UInt8) : Option (ℕ × List UInt8) :=
  if first - offset ≤ 55 then some (first - offset, bs) else readLength (first - offset - 55) bs

def readHeader : List UInt8 → Option (Header × List UInt8)
  | [] => none
  | b :: bs =>
    if b.toNat < 0x80 then some (.byte b, bs)
    else if b.toNat < 0xc0 then
      (readSized 0x80 b.toNat bs).map fun p => (.string p.1, p.2)
    else (readSized 0xc0 b.toNat bs).map fun p => (.list p.1, p.2)

/-- A byte that stands for itself has no other encoding. -/
def Canonical : List UInt8 → Prop
  | [b] => 0x80 ≤ b.toNat
  | _ => True

instance : DecidablePred Canonical
  | [] => inferInstanceAs (Decidable True)
  | [b] => inferInstanceAs (Decidable (0x80 ≤ b.toNat))
  | _ :: _ :: _ => inferInstanceAs (Decidable True)

mutual

/-- The item at the front, and the rest. -/
def readItem : ℕ → List UInt8 → Option (Item × List UInt8)
  | 0, _ => none
  | fuel + 1, bs => do
    let (header, bs) ← readHeader bs
    match header with
    | .byte b => pure (.bytes [b], bs)
    | .string length => do
      let (value, rest) ← split length bs
      if Canonical value then some (.bytes value, rest) else none
    | .list length => do
      let (payload, rest) ← split length bs
      let items ← readItems fuel payload
      pure (.list items, rest)

/-- The items that make up the bytes. -/
def readItems : ℕ → List UInt8 → Option (List Item)
  | 0, _ => none
  | _ + 1, [] => some []
  | fuel + 1, b :: bs => do
    let (item, rest) ← readItem fuel (b :: bs)
    let items ← readItems fuel rest
    pure (item :: items)

end

/-- The one item that the bytes encode. -/
def decode (bs : List UInt8) : Option Item :=
  match readItem (2 * bs.length) bs with
  | some (item, []) => some item
  | _ => none

/-- The number that a string without leading zeros spells. -/
def Item.nat? : Item → Option ℕ
  | .bytes value => if Minimal value then some (beValue value) else none
  | .list _ => none

/-- The item of a number. -/
def Item.ofNat (n : ℕ) : Item := .bytes (natBytes n)

theorem ofNat_inj {m n : ℕ} : Item.ofNat m = Item.ofNat n ↔ m = n := by
  constructor
  · intro h
    rw [← beValue_natBytes m, Item.bytes.inj h, beValue_natBytes]
  · rintro rfl
    rfl

@[simp] theorem nat?_ofNat (n : ℕ) : (Item.ofNat n).nat? = some n := by
  rw [Item.ofNat, Item.nat?, if_pos (minimal_natBytes n), beValue_natBytes]

/-! ## Reading back -/

theorem split_append (bs rest : List UInt8) : split bs.length (bs ++ rest) = some (bs, rest) := by
  rw [split, if_pos (by rw [List.length_append]; exact Nat.le_add_right _ _), List.take_left,
    List.drop_left]

theorem natBytes_pos {n : ℕ} (h : 0 < n) : 0 < (natBytes n).length := by
  apply List.length_pos_of_ne_nil
  intro hnil
  have hvalue := beValue_natBytes n
  rw [hnil] at hvalue
  exact absurd hvalue h.ne

theorem length_natBytes_lt {n : ℕ} (h : n < 2 ^ 64) : (natBytes n).length ≤ 8 := by
  apply length_natBytes_le
  omega

theorem readLength_natBytes {n : ℕ} (hn : 55 < n) (rest : List UInt8) :
    readLength (natBytes n).length (natBytes n ++ rest) = some (n, rest) := by
  have hguard : Minimal (natBytes n) ∧ 55 < beValue (natBytes n) :=
    ⟨minimal_natBytes n, by rwa [beValue_natBytes]⟩
  rw [readLength, split_append, Option.bind_eq_bind, Option.bind_some]
  exact (if_pos hguard).trans (by rw [beValue_natBytes])

theorem toNat_byte {n : ℕ} (h : n < 256) : (UInt8.ofNat n).toNat = n := UInt8.toNat_ofNat_of_lt h

/-- The first byte of a header, and what it is read as. -/
theorem readSized_header {offset length : ℕ} (hoffset : offset ≤ 0xc0) (hlength : length < 2 ^ 64)
    (rest : List UInt8) :
    ∃ b bs, header offset length ++ rest = b :: bs ∧ offset ≤ b.toNat ∧ b.toNat ≤ offset + 63 ∧
      readSized offset b.toNat bs = some (length, rest) := by
  by_cases hshort : length ≤ 55
  · have hb : (UInt8.ofNat (offset + length)).toNat = offset + length :=
      toNat_byte (by omega)
    refine ⟨UInt8.ofNat (offset + length), rest, ?_, ?_, ?_, ?_⟩
    · rw [header, if_pos hshort, List.singleton_append]
    · omega
    · omega
    · rw [readSized, hb, Nat.add_sub_cancel_left, if_pos hshort]
  · have hle := length_natBytes_lt hlength
    have hpos := natBytes_pos (n := length) (by omega)
    have hb : (UInt8.ofNat (offset + 55 + (natBytes length).length)).toNat =
        offset + 55 + (natBytes length).length := toNat_byte (by omega)
    refine ⟨UInt8.ofNat (offset + 55 + (natBytes length).length), natBytes length ++ rest,
      ?_, ?_, ?_, ?_⟩
    · rw [header, if_neg hshort, List.cons_append]
    · omega
    · omega
    · have hcount : offset + 55 + (natBytes length).length - offset - 55 =
          (natBytes length).length := by omega
      rw [readSized, hb, if_neg (by omega), hcount, readLength_natBytes (by omega)]

theorem readHeader_string {length : ℕ} (h : length < 2 ^ 64) (rest : List UInt8) :
    readHeader (header 0x80 length ++ rest) = some (.string length, rest) := by
  obtain ⟨b, bs, heq, hlo, hhi, hsized⟩ := @readSized_header 0x80 _ (by decide) h rest
  rw [heq, readHeader, if_neg (by omega), if_pos (by omega), hsized]
  rfl

theorem readHeader_list {length : ℕ} (h : length < 2 ^ 64) (rest : List UInt8) :
    readHeader (header 0xc0 length ++ rest) = some (.list length, rest) := by
  obtain ⟨b, bs, heq, hlo, hhi, hsized⟩ := @readSized_header 0xc0 _ (by decide) h rest
  rw [heq, readHeader, if_neg (by omega), if_neg (by omega), hsized]
  rfl

theorem readItem_string {fuel : ℕ} {value : List UInt8} (h : value.length < 2 ^ 64)
    (rest : List UInt8) :
    readItem (fuel + 1) (encodeString value ++ rest) = some (.bytes value, rest) := by
  have hframed (hcanonical : Canonical value) :
      readItem (fuel + 1) ((header 0x80 value.length ++ value) ++ rest) =
        some (.bytes value, rest) := by
    rw [readItem, List.append_assoc, readHeader_string h, Option.bind_eq_bind, Option.bind_some]
    simp only [split_append, Option.bind_eq_bind, Option.bind_some]
    exact if_pos hcanonical
  match value with
  | [] => exact hframed trivial
  | [b] =>
    by_cases hb : b.toNat < 0x80
    · rw [encodeString, if_pos hb, List.singleton_append, readItem, readHeader, if_pos hb]
      rfl
    · have hcanonical : Canonical [b] := Nat.le_of_not_lt hb
      rw [encodeString, if_neg hb]
      exact hframed hcanonical
  | b :: c :: bs => exact hframed trivial

theorem length_header_pos (offset length : ℕ) : 0 < (header offset length).length := by
  unfold header
  split_ifs <;> simp

theorem length_encode_pos (item : Item) : 0 < (encode item).length := by
  cases item with
  | bytes value =>
    have hpos := length_header_pos 0x80 value.length
    rw [encode]
    unfold encodeString
    split
    · split_ifs <;> simp
    · rw [List.length_append]
      omega
  | list items =>
    have hpos := length_header_pos 0xc0 (encodeAll items).length
    rw [encode, List.length_append]
    omega

theorem length_le_encodeString (value : List UInt8) :
    value.length ≤ (encodeString value).length := by
  unfold encodeString
  split
  · split_ifs <;> simp
  · rw [List.length_append]
    exact Nat.le_add_left _ _

theorem length_header_le (offset : ℕ) {length : ℕ} (h : length < 2 ^ 64) :
    (header offset length).length ≤ 9 := by
  have hle := length_natBytes_lt h
  unfold header
  split_ifs
  · simp
  · rw [List.length_cons]
    omega

theorem length_encodeString_le {value : List UInt8} (h : value.length < 2 ^ 64) :
    (encodeString value).length ≤ value.length + 9 := by
  have hheader := length_header_le 0x80 h
  unfold encodeString
  split
  · split_ifs
    · exact Nat.le_add_right _ _
    · simp only [List.length_append, List.length_singleton] at hheader ⊢
      omega
  · rw [List.length_append]
    omega

theorem length_ofNat_le {n : ℕ} (h : n < 256 ^ 32) : (encode (.ofNat n)).length ≤ 41 := by
  have hle := length_natBytes_le h
  have hstring := @length_encodeString_le (natBytes n) (by omega)
  rw [Item.ofNat, encode]
  omega

theorem length_encode_list_le {items : List Item} (h : (encodeAll items).length < 2 ^ 64) :
    (encode (.list items)).length ≤ (encodeAll items).length + 9 := by
  have hheader := length_header_le 0xc0 h
  rw [encode, List.length_append]
  omega

/-- The encoding of a list starts with a byte no string starts with. -/
theorem head_encode_list {items : List Item} (h : (encodeAll items).length < 2 ^ 64) :
    ∃ b bs, encode (.list items) = b :: bs ∧ 0xc0 ≤ b.toNat := by
  obtain ⟨b, bs, heq, hlo, -, -⟩ :=
    @readSized_header 0xc0 _ (by decide) h (encodeAll items)
  exact ⟨b, bs, heq, hlo⟩

-- one unit of fuel is spent on each item and one on each list of items, so that twice
-- the number of bytes is enough
mutual

theorem readItem_encode : ∀ (item : Item) (fuel : ℕ) (rest : List UInt8),
    (encode item).length < 2 ^ 64 → 2 * (encode item).length ≤ fuel →
    readItem fuel (encode item ++ rest) = some (item, rest)
  | item, 0, _, _, hfuel => by
    have hpos := length_encode_pos item
    omega
  | .bytes value, fuel + 1, rest, hlength, _ => by
    rw [encode] at hlength ⊢
    exact readItem_string ((length_le_encodeString value).trans_lt hlength) rest
  | .list items, fuel + 1, rest, hlength, hfuel => by
    have hpos := length_header_pos 0xc0 (encodeAll items).length
    rw [encode, List.length_append] at hlength hfuel
    have hitems := readItems_encodeAll items fuel (by omega) (by omega)
    rw [encode, readItem, List.append_assoc, readHeader_list (by omega), Option.bind_eq_bind,
      Option.bind_some]
    simp only [split_append, hitems, Option.bind_eq_bind, Option.bind_some, Option.pure_def]

theorem readItems_encodeAll : ∀ (items : List Item) (fuel : ℕ),
    (encodeAll items).length < 2 ^ 64 → 2 * (encodeAll items).length + 1 ≤ fuel →
    readItems fuel (encodeAll items) = some items
  | _, 0, _, hfuel => by omega
  | [], fuel + 1, _, _ => by rw [encodeAll, readItems]
  | item :: items, fuel + 1, hlength, hfuel => by
    have hpos := length_encode_pos item
    rw [encodeAll, List.length_append] at hlength hfuel
    have hitem := readItem_encode item fuel (encodeAll items) (by omega) (by omega)
    have hitems := readItems_encodeAll items fuel (by omega) (by omega)
    obtain ⟨b, bs, hcons⟩ := List.exists_cons_of_length_pos hpos
    rw [encodeAll, hcons, List.cons_append, readItems, ← List.cons_append, ← hcons, hitem,
      Option.bind_eq_bind, Option.bind_some]
    simp only [hitems, Option.bind_eq_bind, Option.bind_some, Option.pure_def]

end

/-- The decoder reads back what is encoded. -/
theorem decode_encode {item : Item} (h : (encode item).length < 2 ^ 64) :
    decode (encode item) = some item := by
  have hread := readItem_encode item (2 * (encode item).length) [] h (Nat.le_refl _)
  rw [List.append_nil] at hread
  rw [decode, hread]

example : encode (.list [.bytes [0x63, 0x61, 0x74], .ofNat 1024, .ofNat 0, .list []]) =
    [0xc9, 0x83, 0x63, 0x61, 0x74, 0x82, 0x04, 0x00, 0x80, 0xc0] := by decide

theorem encode_inj {x y : Item} (hx : (encode x).length < 2 ^ 64)
    (h : encode x = encode y) : x = y := by
  have hread := decode_encode hx
  rw [h, decode_encode (h ▸ hx)] at hread
  exact (Option.some.inj hread).symm

end Rlp
