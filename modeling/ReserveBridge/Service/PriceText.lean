-- SUMMARY: The price texts of the feeds: the parser with its checked arithmetic, and the numerals whose form it reads.
import ReserveBridge.Lib.Significand
import ReserveBridge.Service.BigMath
import Mathlib.Data.List.DropRight
import Mathlib.Data.Rat.Floor

/-!
# Price texts

`service/src/bridge_rate/decimal.rs`. A price is the digits of a text, with the
point where the fraction and the exponent put it, floored at twelve decimals. The
position of the point is an `i32`. A sum that leaves the range of its type wraps
in the release build, which is the one that is shipped, and ends the evaluation in
a build with overflow checks. So the parser of the second build tells where a step
of the first one overflows.
-/

namespace Service
open Guard

/-! ## The parser -/

/-- `PriceParseError`, with the text that was refused. -/
inductive PriceParseError
  | empty (text : List Char)
  | notNumeric (text : List Char)
  | zero (text : List Char)
  | overflow (text : List Char)
  deriving DecidableEq

/-- What keeps a text without a price. -/
inductive PriceFailure
  | refused (e : PriceParseError)
  | panic (p : Panic)
  deriving DecidableEq

/-- A build with overflow checks, or one without. -/
inductive Build
  | release
  | checked
  deriving DecidableEq

namespace PriceText

/-- An `i32` sum or difference. -/
def i32 (build : Build) (n : ℤ) : Except PriceFailure ℤ :=
  match build with
  | .release => .ok ((n + 2 ^ 31) % 2 ^ 32 - 2 ^ 31)
  | .checked => do
    require (-2 ^ 31 ≤ n ∧ n < 2 ^ 31) (.panic .overflow)
    return n

/-- A `u128` sum, product or power. -/
def u128 (build : Build) (n : ℕ) : Except PriceFailure ℕ :=
  match build with
  | .release => .ok (n % 2 ^ 128)
  | .checked => do
    require (n < 2 ^ 128) (.panic .overflow)
    return n

/-- `char::is_whitespace`. -/
def isWhitespace (c : Char) : Bool :=
  let n := c.toNat
  (0x9 ≤ n ∧ n ≤ 0xd) ∨ n = 0x20 ∨ n = 0x85 ∨ n = 0xa0 ∨ n = 0x1680 ∨ (0x2000 ≤ n ∧ n ≤ 0x200a) ∨
    n = 0x2028 ∨ n = 0x2029 ∨ n = 0x202f ∨ n = 0x205f ∨ n = 0x3000

/-- `str::trim`. -/
def trim (text : List Char) : List Char :=
  (text.dropWhile isWhitespace).rdropWhile isWhitespace

/-- What stands before and after the first character that `str::find` finds. -/
def splitFirst (p : Char → Bool) (text : List Char) : Option (List Char × List Char) :=
  match text.dropWhile (fun c => !p c) with
  | [] => none
  | _ :: after => some (text.takeWhile (fun c => !p c), after)

def digitOf (c : Char) : ℕ := c.toNat - '0'.toNat

/-- `str::parse::<i32>` on digits. -/
def parseI32 (digits : List Char) : Option ℤ :=
  let n := digits.foldl (fun n c => n * 10 + digitOf c) 0
  if n < 2 ^ 31 then some n else none

/-- The text after the `e`: its sign, and the digits after it. -/
def splitSign : List Char → Bool × List Char
  | '-' :: digits => (true, digits)
  | '+' :: digits => (false, digits)
  | digits => (false, digits)

/-- The mantissa and the exponent. -/
def splitExponent (text trimmed : List Char) : Except PriceFailure (List Char × ℤ) :=
  match splitFirst (fun c => c = 'e' ∨ c = 'E') trimmed with
  | none => .ok (trimmed, 0)
  | some (mantissa, e) => do
    let (neg, digits) := splitSign e
    require (digits ≠ [] ∧ digits.all Char.isDigit ∧ digits.length ≤ 4)
      (.refused (.notNumeric text))
    let value ← orFail (parseI32 digits) (.refused (.notNumeric text))
    return (mantissa, if neg then -value else value)

/-- The digits on both sides of the point. -/
def splitPoint (mantissa : List Char) : List Char × List Char :=
  (splitFirst (fun c => c = '.') mantissa).getD (mantissa, [])

/-- The parts of the text that a price is made of. -/
structure Parts where
  integer : List Char
  fraction : List Char
  exponent : ℤ

/-- The first half of `parse_price_e12`: the form of the text. -/
def readParts (text : List Char) : Except PriceFailure Parts := do
  let trimmed := trim text
  require (trimmed ≠ []) (.refused (.empty text))
  let (mantissa, exponent) ← splitExponent text trimmed
  let (integer, fraction) := splitPoint mantissa
  require (¬ (integer = [] ∧ fraction = [])) (.refused (.notNumeric text))
  require (integer.all Char.isDigit ∧ fraction.all Char.isDigit) (.refused (.notNumeric text))
  return ⟨integer, fraction, exponent⟩

/-- The state of the loop over the digits. -/
structure Accumulated where
  acc : ℕ
  significant : ℕ
  scale : ℤ

/-- The position of the point after a digit. -/
def moveScale (build : Build) (isFrac : Bool) (scale : ℤ) : Except PriceFailure ℤ :=
  if isFrac then i32 build (scale - 1) else .ok scale

/-- One digit of the loop. -/
def accumulate (build : Build) (text : List Char) (s : Accumulated) (digit : Bool × ℕ) :
    Except PriceFailure Accumulated := do
  if s.acc = 0 ∧ digit.2 = 0 then
    let scale ← moveScale build digit.1 s.scale
    return { s with scale }
  else
    let significant := s.significant + 1
    require (significant ≤ 38) (.refused (.overflow text))
    let tens ← u128 build (s.acc * 10)
    let acc ← u128 build (tens + digit.2)
    let scale ← moveScale build digit.1 s.scale
    return ⟨acc, significant, scale⟩

/-- The digits of both sides, each with the side it stands on. -/
def Parts.digits (parts : Parts) : List (Bool × ℕ) :=
  parts.integer.map (fun c => (false, digitOf c)) ++ parts.fraction.map fun c => (true, digitOf c)

/-- `acc` with the point moved by `shift`. The number of places dropped is read as
a `u32`. -/
def scaleBy (build : Build) (text : List Char) (acc : ℕ) (shift : ℤ) : Except PriceFailure ℕ :=
  if 0 ≤ shift then do
    require (shift ≤ 38) (.refused (.overflow text))
    let power ← u128 build (10 ^ shift.toNat)
    require (acc * power < 2 ^ 128) (.refused (.overflow text))
    return acc * power
  else do
    let drop := (← i32 build (-shift)) % 2 ^ 32
    if 38 < drop then return 0
    else
      let power ← u128 build (10 ^ drop.toNat)
      return acc / power

/-- The end of `parse_price_e12`: the digits at their place. -/
def place (build : Build) (text : List Char) (s : Accumulated) (exponent : ℤ) :
    Except PriceFailure U64 := do
  require (s.acc ≠ 0) (.refused (.zero text))
  let exponent ← i32 build (s.scale + exponent)
  let shift ← i32 build (exponent + 12)
  let scaled ← scaleBy build text s.acc shift
  require (scaled ≠ 0) (.refused (.zero text))
  if h : scaled < 2 ^ 64 then return ⟨scaled, h⟩ else .error (.refused (.overflow text))

/-- The second half of `parse_price_e12`: the price of the parts. -/
def priceOf (build : Build) (text : List Char) (parts : Parts) : Except PriceFailure U64 := do
  let s ← parts.digits.foldlM (accumulate build text) ⟨0, 0, 0⟩
  place build text s parts.exponent

end PriceText

open PriceText in
/-- `parse_price_e12`. -/
def parsePriceE12 (build : Build) (text : List Char) : Except PriceFailure U64 := do
  let parts ← readParts text
  priceOf build text parts

example : parsePriceE12 .release [' ', '4', '.', '4', '3', '6', '7', 'e', '-', '5'] = .ok 44367000 := by
  decide +kernel

/-! ## Numerals -/

namespace PriceText

/-- The exponent of a numeral: `e` or `E`, an optional sign, one to four digits. -/
structure Exponent where
  marker : Char
  sign : Option Char
  digits : List Char
  marker_eq : marker = 'e' ∨ marker = 'E'
  sign_eq : ∀ c ∈ sign, c = '-' ∨ c = '+'
  isDigit : ∀ c ∈ digits, c.isDigit
  length_pos : 0 < digits.length
  length_le : digits.length ≤ 4

/-- A decimal numeral: digits with at most one point among them, at least one
digit, and an optional exponent. -/
structure Numeral where
  integer : List Char
  fraction : Option (List Char)
  exponent : Option Exponent
  integer_isDigit : ∀ c ∈ integer, c.isDigit
  fraction_isDigit : ∀ f ∈ fraction, ∀ c ∈ f, c.isDigit
  nonempty : ¬ (integer = [] ∧ fraction.getD [] = [])

namespace Exponent

def text (e : Exponent) : List Char := e.marker :: (e.sign.toList ++ e.digits)

def magnitude (e : Exponent) : ℕ := Radix.value 10 (e.digits.map digitOf)

def value (e : Exponent) : ℤ := if e.sign = some '-' then -e.magnitude else e.magnitude

end Exponent

namespace Numeral

def mantissa (n : Numeral) : List Char :=
  n.integer ++ n.fraction.elim [] fun f => '.' :: f

def text (n : Numeral) : List Char := n.mantissa ++ n.exponent.elim [] Exponent.text

/-- The digits on both sides of the point. -/
def digits (n : Numeral) : List ℕ := (n.integer ++ n.fraction.getD []).map digitOf

/-- The power of ten that the digits, read as an integer, are multiplied by. -/
def power (n : Numeral) : ℤ := n.exponent.elim 0 Exponent.value - (n.fraction.getD []).length

/-- The number that the numeral denotes. -/
def value (n : Numeral) : ℚ := Radix.value 10 n.digits * 10 ^ n.power

/-- The number of digits from the first that is not zero on. -/
def significant (n : Numeral) : ℕ := (Radix.significant n.digits).length

/-- The price at twelve decimals. -/
def price (n : Numeral) : ℕ := ⌊n.value * 10 ^ 12⌋₊

def parts (n : Numeral) : Parts :=
  ⟨n.integer, n.fraction.getD [], n.exponent.elim 0 Exponent.value⟩

end Numeral

/-! ## Reading a numeral -/

theorem digitOf_lt {c : Char} (h : c.isDigit) : digitOf c < 10 := by
  have hle := (Char.isDigit_iff_toNat.mp h).2
  have hnine : '9'.toNat = 57 := rfl
  have hzero : '0'.toNat = 48 := rfl
  rw [digitOf]
  omega

theorem isDigit_ne {c d : Char} (h : c.isDigit) (hd : d.isDigit = false) : c ≠ d := by
  rintro rfl
  rw [hd] at h
  exact Bool.noConfusion h

theorem splitFirst_cons_of_pos {p : Char → Bool} {c : Char} (hc : p c = true) (text : List Char) :
    splitFirst p (c :: text) = some ([], text) := by
  simp [splitFirst, hc]

theorem splitFirst_cons_of_neg {p : Char → Bool} {c : Char} (hc : p c = false)
    (text : List Char) :
    splitFirst p (c :: text) = (splitFirst p text).map fun parts => (c :: parts.1, parts.2) := by
  unfold splitFirst
  rw [List.dropWhile_cons_of_pos (by simp [hc]), List.takeWhile_cons_of_pos (by simp [hc])]
  cases text.dropWhile (fun c => !p c) with
  | nil => rfl
  | cons d after => rfl

theorem splitFirst_eq_none {p : Char → Bool} {text : List Char} (h : ∀ c ∈ text, p c = false) :
    splitFirst p text = none := by
  induction text with
  | nil => rfl
  | cons c text ih =>
    rw [List.forall_mem_cons] at h
    rw [splitFirst_cons_of_neg h.1, ih h.2]
    rfl

theorem splitFirst_append {p : Char → Bool} {before after : List Char} {c : Char}
    (h : ∀ d ∈ before, p d = false) (hc : p c = true) :
    splitFirst p (before ++ c :: after) = some (before, after) := by
  induction before with
  | nil => exact splitFirst_cons_of_pos hc after
  | cons d before ih =>
    rw [List.forall_mem_cons] at h
    rw [List.cons_append, splitFirst_cons_of_neg h.1, ih h.2]
    rfl

/-- A text is split at the first character found, or not at all. -/
theorem splitFirst_cases (p : Char → Bool) (text : List Char) :
    ((∀ c ∈ text, p c = false) ∧ splitFirst p text = none) ∨
      ∃ before c after, text = before ++ c :: after ∧ (∀ d ∈ before, p d = false) ∧ p c = true ∧
        splitFirst p text = some (before, after) := by
  induction text with
  | nil => exact .inl ⟨by simp, rfl⟩
  | cons c text ih =>
    cases hc : p c with
    | true => exact .inr ⟨[], c, text, rfl, by simp, hc, splitFirst_cons_of_pos hc text⟩
    | false =>
      rcases ih with ⟨hnone, -⟩ | ⟨before, d, after, rfl, hbefore, hd, -⟩
      · have hall : ∀ d ∈ c :: text, p d = false := List.forall_mem_cons.mpr ⟨hc, hnone⟩
        exact .inl ⟨hall, splitFirst_eq_none hall⟩
      · have hall : ∀ d ∈ c :: before, p d = false := List.forall_mem_cons.mpr ⟨hc, hbefore⟩
        exact .inr ⟨c :: before, d, after, rfl, hall, hd, splitFirst_append hall hd⟩

theorem foldl_digitOf (digits : List Char) :
    digits.foldl (fun n c => n * 10 + digitOf c) 0 = Radix.value 10 (digits.map digitOf) := by
  induction digits using List.reverseRecOn with
  | nil => rfl
  | append_singleton digits c ih =>
    rw [List.foldl_concat, ih, List.map_append, List.map_singleton, Radix.value_append_singleton]

theorem map_digitOf_lt {digits : List Char} (h : ∀ c ∈ digits, c.isDigit) :
    ∀ d ∈ digits.map digitOf, d < 10 := by
  intro d hd
  obtain ⟨c, hc, rfl⟩ := List.mem_map.mp hd
  exact digitOf_lt (h c hc)

theorem Exponent.magnitude_lt (e : Exponent) : e.magnitude < 10000 := by
  have hlt := Radix.value_lt_pow_length (b := 10) (by decide) (map_digitOf_lt e.isDigit)
  rw [List.length_map] at hlt
  exact hlt.trans_le (Nat.pow_le_pow_right (by decide) e.length_le)

theorem parseI32_eq (e : Exponent) : parseI32 e.digits = some (e.magnitude : ℤ) := by
  have hlt := e.magnitude_lt
  rw [parseI32, foldl_digitOf]
  exact if_pos (hlt.trans (by decide))

theorem splitSign_eq (e : Exponent) :
    splitSign (e.sign.toList ++ e.digits) = (decide (e.sign = some '-'), e.digits) := by
  obtain ⟨marker, sign, digits, -, hsign, hdigit, hpos, -⟩ := e
  cases sign with
  | none =>
    cases digits with
    | nil => simp at hpos
    | cons c digits =>
      have hc := hdigit c List.mem_cons_self
      have hminus : c ≠ '-' := isDigit_ne hc (by decide)
      have hplus : c ≠ '+' := isDigit_ne hc (by decide)
      simp only [Option.toList_none, List.nil_append]
      rw [splitSign.eq_3 _ (fun _ h => hminus (List.cons.inj h).1)
        (fun _ h => hplus (List.cons.inj h).1)]
      simp
  | some c =>
    rcases hsign c rfl with rfl | rfl
    · rfl
    · rfl

theorem splitSign_cases (e : List Char) :
    (∃ digits, e = '-' :: digits ∧ splitSign e = (true, digits)) ∨
      (∃ digits, e = '+' :: digits ∧ splitSign e = (false, digits)) ∨ splitSign e = (false, e) := by
  unfold splitSign
  split
  · exact .inl ⟨_, rfl, rfl⟩
  · exact .inr (.inl ⟨_, rfl, rfl⟩)
  · exact .inr (.inr rfl)

/-- A sign and digits are the end of an exponent. -/
theorem exists_exponent {marker : Char} {e : List Char} (hmarker : marker = 'e' ∨ marker = 'E')
    (hdigit : ∀ c ∈ (splitSign e).2, c.isDigit) (hne : (splitSign e).2 ≠ [])
    (hle : (splitSign e).2.length ≤ 4) :
    ∃ x : Exponent, x.text = marker :: e ∧ x.digits = (splitSign e).2 ∧
      (x.sign = some '-' ↔ (splitSign e).1 = true) := by
  have hpos : 0 < (splitSign e).2.length := List.length_pos_iff.mpr hne
  rcases splitSign_cases e with ⟨digits, rfl, hsplit⟩ | ⟨digits, rfl, hsplit⟩ | hsplit
  · rw [hsplit] at hdigit hpos hle ⊢
    exact ⟨⟨marker, some '-', digits, hmarker, by simp, hdigit, hpos, hle⟩, rfl, rfl, by simp⟩
  · rw [hsplit] at hdigit hpos hle ⊢
    exact ⟨⟨marker, some '+', digits, hmarker, by simp, hdigit, hpos, hle⟩, rfl, rfl, by simp⟩
  · rw [hsplit] at hdigit hpos hle ⊢
    exact ⟨⟨marker, none, e, hmarker, by simp, hdigit, hpos, hle⟩, rfl, rfl, by simp⟩

theorem Numeral.mem_mantissa {n : Numeral} {c : Char} (hc : c ∈ n.mantissa) :
    c.isDigit = true ∨ c = '.' := by
  rw [Numeral.mantissa, List.mem_append] at hc
  rcases hc with hc | hc
  · exact .inl (n.integer_isDigit c hc)
  · cases hf : n.fraction with
    | none =>
      rw [hf] at hc
      exact absurd hc List.not_mem_nil
    | some f =>
      rw [hf] at hc
      rcases List.mem_cons.mp hc with rfl | hc
      · exact .inr rfl
      · exact .inl (n.fraction_isDigit f hf c hc)

theorem splitExponent_text (text : List Char) (n : Numeral) :
    splitExponent text n.text = .ok (n.mantissa, n.exponent.elim 0 Exponent.value) := by
  have hmantissa : ∀ c ∈ n.mantissa, decide (c = 'e' ∨ c = 'E') = false := by
    intro c hc
    apply decide_eq_false
    rcases Numeral.mem_mantissa hc with hdigit | rfl
    · exact not_or.mpr ⟨isDigit_ne hdigit (by decide), isDigit_ne hdigit (by decide)⟩
    · decide
  rw [splitExponent, Numeral.text]
  cases n.exponent with
  | none =>
    rw [Option.elim_none, List.append_nil, splitFirst_eq_none hmantissa]
    rfl
  | some e =>
    have hne : e.digits ≠ [] := List.length_pos_iff.mp e.length_pos
    rw [Option.elim_some, Exponent.text, splitFirst_append hmantissa (by simpa using e.marker_eq)]
    simp only [splitSign_eq, parseI32_eq, bind_eq_ok, require_eq_ok, orFail_eq_ok, exists_unit]
    refine ⟨⟨hne, List.all_eq_true.mpr e.isDigit, e.length_le⟩, e.magnitude, rfl, ?_⟩
    simp [Exponent.value, pure, Except.pure]

/-- A mantissa and an exponent in their form, if there is one. -/
theorem splitExponent_eq_ok {text trimmed : List Char} {parts : List Char × ℤ}
    (h : splitExponent text trimmed = .ok parts) :
    ∃ exponent : Option Exponent, trimmed = parts.1 ++ exponent.elim [] Exponent.text ∧
      parts.2 = exponent.elim 0 Exponent.value := by
  rw [splitExponent] at h
  rcases splitFirst_cases (fun c => decide (c = 'e' ∨ c = 'E')) trimmed with
    ⟨-, hnone⟩ | ⟨mantissa, marker, e, rfl, -, hmarker, hsome⟩
  · rw [hnone] at h
    obtain rfl : (trimmed, (0 : ℤ)) = parts := Except.ok.inj h
    exact ⟨none, (List.append_nil _).symm, rfl⟩
  · rw [hsome] at h
    simp only [bind_eq_ok, require_eq_ok, orFail_eq_ok, exists_unit, pure_eq_ok] at h
    obtain ⟨⟨hne, hdigit, hle⟩, value, hvalue, rfl⟩ := h
    obtain ⟨x, htext, hdigits, hsign⟩ :=
      exists_exponent (of_decide_eq_true hmarker) (List.all_eq_true.mp hdigit) hne hle
    have hmagnitude : value = x.magnitude := by
      rw [← hdigits, parseI32_eq] at hvalue
      exact (Option.some.inj hvalue).symm
    refine ⟨some x, by rw [Option.elim_some, htext], ?_⟩
    simp only [Option.elim_some, Exponent.value, hsign, hmagnitude]

theorem splitPoint_mantissa (n : Numeral) :
    splitPoint n.mantissa = (n.integer, n.fraction.getD []) := by
  have hinteger : ∀ c ∈ n.integer, decide (c = '.') = false := fun c hc =>
    decide_eq_false (isDigit_ne (n.integer_isDigit c hc) (by decide))
  rw [splitPoint, Numeral.mantissa]
  cases n.fraction with
  | none =>
    rw [Option.elim_none, List.append_nil, splitFirst_eq_none hinteger]
    rfl
  | some f =>
    rw [Option.elim_some, splitFirst_append hinteger (by decide)]
    rfl

theorem splitPoint_eq (mantissa : List Char) :
    ∃ fraction : Option (List Char),
      mantissa = (splitPoint mantissa).1 ++ fraction.elim [] (fun f => '.' :: f) ∧
        (splitPoint mantissa).2 = fraction.getD [] := by
  rw [splitPoint]
  rcases splitFirst_cases (fun c => decide (c = '.')) mantissa with
    ⟨-, hnone⟩ | ⟨before, point, after, rfl, -, hpoint, hsome⟩
  · rw [hnone]
    exact ⟨none, (List.append_nil _).symm, rfl⟩
  · obtain rfl : point = '.' := of_decide_eq_true hpoint
    rw [hsome]
    exact ⟨some after, rfl, rfl⟩

/-- The form of a text is read exactly where it is the form of a numeral. -/
theorem readParts_eq_ok_iff {text : List Char} {parts : Parts} :
    readParts text = .ok parts ↔ ∃ n : Numeral, trim text = n.text ∧ n.parts = parts := by
  constructor
  · intro h
    simp only [readParts, bind_eq_ok, require_eq_ok, exists_unit, pure_eq_ok, List.all_eq_true] at h
    obtain ⟨-, split, hsplit, hne, ⟨hinteger, hfraction⟩, rfl⟩ := h
    obtain ⟨exponent, htrim, hexponent⟩ := splitExponent_eq_ok hsplit
    obtain ⟨fraction, hmantissa, hf⟩ := splitPoint_eq split.1
    rw [hf] at hne hfraction
    have hdigit : ∀ f ∈ fraction, ∀ c ∈ f, c.isDigit := by
      rintro f rfl
      exact hfraction
    refine ⟨⟨(splitPoint split.1).1, fraction, exponent, hinteger, hdigit, hne⟩, ?_, ?_⟩
    · rw [htrim, Numeral.text, Numeral.mantissa, ← hmantissa]
    · exact congrArg₂ (Parts.mk _) hf.symm hexponent.symm
  · rintro ⟨n, htrim, rfl⟩
    have hne : n.text ≠ [] := by
      intro h
      have hmantissa := (List.append_eq_nil_iff.mp h).1
      obtain ⟨hinteger, hpoint⟩ := List.append_eq_nil_iff.mp hmantissa
      apply n.nonempty
      refine ⟨hinteger, ?_⟩
      cases hf : n.fraction with
      | none => rfl
      | some f =>
        rw [hf] at hpoint
        exact absurd hpoint (List.cons_ne_nil _ _)
    have hfraction : ∀ c ∈ n.fraction.getD [], c.isDigit := by
      cases hf : n.fraction with
      | none => simp
      | some f => exact n.fraction_isDigit f hf
    simp only [readParts, bind_eq_ok, require_eq_ok, exists_unit, pure_eq_ok, htrim,
      splitExponent_text]
    refine ⟨hne, _, rfl, ?_⟩
    rw [splitPoint_mantissa]
    exact ⟨n.nonempty, ⟨List.all_eq_true.mpr n.integer_isDigit, List.all_eq_true.mpr hfraction⟩, rfl⟩

theorem splitExponent_ne_panic (text trimmed : List Char) (p : Panic) :
    splitExponent text trimmed ≠ .error (.panic p) := by
  intro h
  rw [splitExponent] at h
  split at h
  · cases h
  · simp [bind_eq_error, require_eq_error, orFail_eq_error, pure, Except.pure] at h

theorem readParts_ne_panic (text : List Char) (p : Panic) :
    readParts text ≠ .error (.panic p) := by
  intro h
  simp only [readParts, bind_eq_error, require_eq_error, pure, Except.pure, reduceCtorEq,
    and_false, exists_const, or_false, require_eq_ok,
    splitExponent_ne_panic] at h

end PriceText

end Service
