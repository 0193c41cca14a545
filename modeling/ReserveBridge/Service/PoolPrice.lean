-- SUMMARY: The price of a pool from the square root it reports: two floored quotients in 256 bits, their distance from the exact price, and every way they fail.
import ReserveBridge.Lib.Floors
import ReserveBridge.Service.RateBand

/-!
# The price of a pool

`glc_usd_e12_from_sqrt_price` of `service/src/bridge_rate/feeds/uniswap_v4.rs`. The
square of what the pool reports does not fit in 256 bits. It is divided by, or
multiplied with, twice.
-/

namespace Service
open Guard

/-! ## The price -/

/-- The failures of `FeedError` that a price can end in. -/
inductive FeedError
  | malformed (detail : String)
  | overflow (what : String)
  deriving DecidableEq

/-- What keeps a pool without a price. -/
inductive PoolPriceFailure
  | refused (e : FeedError)
  | panic (p : Panic)
  deriving DecidableEq

namespace PoolPrice

/-- `x · 2^96 / s`, where it fits. -/
def shiftedQuotient (x s : U128) (what : String) : Except PoolPriceFailure U128 := do
  let shifted ← ((U256.fromU128 x).shiftLeft 96).mapError .panic
  orFail (shifted.divU128 s) (.refused (.overflow what))

/-- `x · s / 2^96`, where it fits. -/
def productQuotient (x s : U128) (what : String) : Except PoolPriceFailure U128 := do
  let product ← (U256.mulU128 x s).mapError .panic
  orFail (product.divU128 ((1 : U128) <<< 96)) (.refused (.overflow what))

/-- The raw price, of a wei in weis. -/
def rawPrice (s : U128) (ethUsd : U64) (glcIsCurrency1 : Bool) : Except PoolPriceFailure U128 :=
  if glcIsCurrency1 then do
    let a ← shiftedQuotient ethUsd.wide s "eth_usd·2^96/sqrtPrice"
    shiftedQuotient a s "a·2^96/sqrtPrice"
  else do
    let a ← productQuotient ethUsd.wide s "eth_usd·sqrtPrice/2^96"
    productQuotient a s "a·sqrtPrice/2^96"

/-- `10u128.pow`. -/
def pow10 (n : ℕ) : Except PoolPriceFailure U128 := do
  require (10 ^ n < 2 ^ 128) (.panic .overflow)
  return .ofNat 128 (10 ^ n)

/-- The price of a whole unit. -/
def adjusted (raw : U128) (glcDec ethDec : UInt8) : Except PoolPriceFailure U128 :=
  if ethDec ≤ glcDec then do
    let power ← pow10 (glcDec.toNat - ethDec.toNat)
    let product ← (mulDiv raw power 1).mapError .panic
    orFail product (.refused (.overflow "decimal adjustment"))
  else do
    let power ← pow10 (ethDec.toNat - glcDec.toNat)
    let quotient ← (mulDiv raw 1 power).mapError .panic
    orFail quotient (.refused (.overflow "decimal adjustment"))

/-- The decimals of the token, and of the currency that it is priced in. -/
def decimals (glcIsCurrency1 : Bool) (currency0 currency1 : UInt8) : UInt8 × UInt8 :=
  if glcIsCurrency1 then (currency1, currency0) else (currency0, currency1)

end PoolPrice

open PoolPrice in
/-- `glc_usd_e12_from_sqrt_price`. -/
def glcUsdFromSqrtPrice (s : U128) (ethUsd : U64) (glcIsCurrency1 : Bool)
    (currency0Decimals currency1Decimals : UInt8) : Except PoolPriceFailure U64 := do
  require (s ≠ 0) (.refused (.malformed "sqrtPriceX96 is zero"))
  require (ethUsd ≠ 0) (.refused (.malformed "ETH/USD price is zero"))
  let raw ← rawPrice s ethUsd glcIsCurrency1
  let (glcDec, ethDec) := decimals glcIsCurrency1 currency0Decimals currency1Decimals
  let price ← adjusted raw glcDec ethDec
  require (price ≠ 0)
    (.refused (.malformed "derived GLC/USD price is below one unit at 12 decimals"))
  if h : price.toNat < 2 ^ 64 then return ⟨price.toNat, h⟩
  else .error (.refused (.overflow "GLC/USD does not fit u64 at 12 decimals"))

example : glcUsdFromSqrtPrice (.ofNat 128 (1000 * 2 ^ 96)) 2500000000000000 true 18 18 =
    .ok 2500000000 := by
  decide +kernel

namespace PoolPrice

/-! ## The quotients -/

/-- What a quotient multiplies with, and what it divides by. -/
def multiplier (s : U128) (glcIsCurrency1 : Bool) : ℕ := if glcIsCurrency1 then 2 ^ 96 else s.toNat
def divisor (s : U128) (glcIsCurrency1 : Bool) : ℕ := if glcIsCurrency1 then s.toNat else 2 ^ 96

def firstQuotient (s : U128) (ethUsd : U64) (glcIsCurrency1 : Bool) : ℕ :=
  ethUsd.val * multiplier s glcIsCurrency1 / divisor s glcIsCurrency1

def secondQuotient (s : U128) (ethUsd : U64) (glcIsCurrency1 : Bool) : ℕ :=
  firstQuotient s ethUsd glcIsCurrency1 * multiplier s glcIsCurrency1 / divisor s glcIsCurrency1

def adjustedQuotient (raw : ℕ) (glcDec ethDec : UInt8) : ℕ :=
  if ethDec ≤ glcDec then raw * 10 ^ (glcDec.toNat - ethDec.toNat)
  else raw / 10 ^ (ethDec.toNat - glcDec.toNat)

/-- A computation of a number: it returns the number, or refuses one that does not
fit. -/
inductive Answers (x : Except PoolPriceFailure U128) (n : ℕ) : Prop
  | fits (v : U128) (hx : x = .ok v) (hv : v.toNat = n)
  | tooLarge (what : String) (hx : x = .error (.refused (.overflow what))) (hn : 2 ^ 128 ≤ n)

/-- The answer of the long division. -/
theorem answers_orFail {o : Option U128} {d : U128} {n : ℕ} (hd : d ≠ 0) (what : String)
    (ho : o = if d ≠ 0 ∧ n < 2 ^ 128 then some (.ofNat 128 n) else none) :
    Answers (orFail o (.refused (.overflow what))) n := by
  subst ho
  by_cases hn : n < 2 ^ 128
  · rw [if_pos ⟨hd, hn⟩]
    exact .fits _ rfl (Nat.mod_eq_of_lt hn)
  · rw [if_neg fun h => hn h.2]
    exact .tooLarge what rfl (Nat.not_lt.mp hn)

theorem shiftedQuotient_answers {s : U128} (hs : s ≠ 0) (x : U128) (what : String) :
    Answers (shiftedQuotient x s what) (x.toNat * 2 ^ 96 / s.toNat) := by
  have hvalue : (U256.fromU128 x).toNat = x.toNat := by
    show 0 * 2 ^ 128 + x.toNat = x.toNat
    omega
  have hfits : (U256.fromU128 x).hi.toNat * 2 ^ 96 < 2 ^ 128 := by
    show 0 * 2 ^ 96 < 2 ^ 128
    decide
  obtain ⟨shifted, hshifted, hshiftedv⟩ := U256.shiftLeft_eq (by decide) (by decide) hfits
  rw [hvalue] at hshiftedv
  rw [shiftedQuotient, hshifted, ← hshiftedv]
  exact answers_orFail hs what (shifted.divU128_eq s)

theorem productQuotient_answers (x s : U128) (what : String) :
    Answers (productQuotient x s what) (x.toNat * s.toNat / 2 ^ 96) := by
  obtain ⟨product, hproduct, hproductv⟩ := U256.mulU128_eq x s
  have hdivisor : ((1 : U128) <<< 96).toNat = 2 ^ 96 := rfl
  have hne : (1 : U128) <<< 96 ≠ 0 := by decide
  rw [productQuotient, hproduct, ← hproductv, ← hdivisor]
  exact answers_orFail hne what (product.divU128_eq _)

/-- The raw price is the second quotient, where both fit. -/
theorem rawPrice_cases {s : U128} (hs : s ≠ 0) (ethUsd : U64) (glcIsCurrency1 : Bool) :
    Answers (rawPrice s ethUsd glcIsCurrency1) (secondQuotient s ethUsd glcIsCurrency1) ∨
      2 ^ 128 ≤ firstQuotient s ethUsd glcIsCurrency1 ∧
        ∃ what, rawPrice s ethUsd glcIsCurrency1 = .error (.refused (.overflow what)) := by
  have hwide := ethUsd.toNat_wide
  cases glcIsCurrency1 with
  | true =>
    rcases shiftedQuotient_answers hs ethUsd.wide "eth_usd·2^96/sqrtPrice" with
      ⟨a, ha, hav⟩ | ⟨what, ha, hlarge⟩
    · have hsecond := shiftedQuotient_answers hs a "a·2^96/sqrtPrice"
      rw [hav, hwide] at hsecond
      left
      rw [rawPrice, if_pos rfl, ha]
      exact hsecond
    · rw [hwide] at hlarge
      refine .inr ⟨hlarge, what, ?_⟩
      rw [rawPrice, if_pos rfl, ha]
      rfl
  | false =>
    rcases productQuotient_answers ethUsd.wide s "eth_usd·sqrtPrice/2^96" with
      ⟨a, ha, hav⟩ | ⟨what, ha, hlarge⟩
    · have hsecond := productQuotient_answers a s "a·sqrtPrice/2^96"
      rw [hav, hwide] at hsecond
      left
      rw [rawPrice, if_neg Bool.false_ne_true, ha]
      exact hsecond
    · rw [hwide] at hlarge
      refine .inr ⟨hlarge, what, ?_⟩
      rw [rawPrice, if_neg Bool.false_ne_true, ha]
      rfl

theorem pow10_eq {n : ℕ} (hn : n ≤ 38) : ∃ power, pow10 n = .ok power ∧ power.toNat = 10 ^ n := by
  have hlt : 10 ^ n < 2 ^ 128 := (Nat.pow_le_pow_right (by decide) hn).trans_lt (by decide)
  refine ⟨.ofNat 128 (10 ^ n), ?_, Nat.mod_eq_of_lt hlt⟩
  simp only [pow10, bind_eq_ok, require_eq_ok, exists_unit, pure_eq_ok, and_true]
  exact hlt

/-- Decimals that a power of ten in a `u128` bridges. -/
def Near (a b : UInt8) : Prop := a.toNat ≤ b.toNat + 38 ∧ b.toNat ≤ a.toNat + 38

theorem adjusted_answers {glcDec ethDec : UInt8} (hnear : Near glcDec ethDec) (raw : U128) :
    Answers (adjusted raw glcDec ethDec) (adjustedQuotient raw.toNat glcDec ethDec) := by
  rw [adjusted, adjustedQuotient]
  by_cases hle : ethDec ≤ glcDec
  · obtain ⟨power, hpower, hpowerv⟩ := pow10_eq (n := glcDec.toNat - ethDec.toNat) (by
      have := hnear.1
      omega)
    have hone : (1 : U128).toNat = 1 := rfl
    have hproduct := mulDiv_eq raw power 1
    rw [hone, Nat.div_one, hpowerv] at hproduct
    rw [if_pos hle, if_pos hle, hpower]
    simp only [bind, Except.bind]
    rw [hproduct]
    exact answers_orFail (by decide) "decimal adjustment" rfl
  · obtain ⟨power, hpower, hpowerv⟩ := pow10_eq (n := ethDec.toNat - glcDec.toNat) (by
      have := hnear.2
      omega)
    have hone : (1 : U128).toNat = 1 := rfl
    have hne : power ≠ 0 := by
      rintro rfl
      exact absurd hpowerv (by
        show 0 ≠ _
        positivity)
    have hquotient := mulDiv_eq raw 1 power
    rw [hone, Nat.mul_one, hpowerv] at hquotient
    rw [if_neg hle, if_neg hle, hpower]
    simp only [bind, Except.bind]
    rw [hquotient]
    exact answers_orFail hne "decimal adjustment" rfl

/-! ## The exact price -/

/-- The price that the square root stands for. -/
def exactPrice (s : U128) (ethUsd : U64) (glcIsCurrency1 : Bool) : ℚ :=
  if glcIsCurrency1 then ethUsd.val * 2 ^ 192 / s.toNat ^ 2 else ethUsd.val * s.toNat ^ 2 / 2 ^ 192

/-- The distance that two floors keep. -/
def rawError (s : U128) (glcIsCurrency1 : Bool) : ℚ :=
  1 + if glcIsCurrency1 then 2 ^ 96 / (s.toNat : ℚ) else (s.toNat : ℚ) / 2 ^ 96

/-- A whole unit of the token over one of the currency. -/
def unitScale (glcDec ethDec : UInt8) : ℚ := 10 ^ ((glcDec.toNat : ℤ) - ethDec.toNat)

theorem divisor_pos {s : U128} (hs : s ≠ 0) (glcIsCurrency1 : Bool) :
    0 < divisor s glcIsCurrency1 := by
  cases glcIsCurrency1 with
  | true => exact Nat.pos_of_ne_zero fun h => hs (BitVec.eq_of_toNat_eq h)
  | false => exact Nat.two_pow_pos 96

theorem exactPrice_eq {s : U128} (hs : s ≠ 0) (ethUsd : U64) (glcIsCurrency1 : Bool) :
    exactPrice s ethUsd glcIsCurrency1 =
      ethUsd.val * ((multiplier s glcIsCurrency1 : ℚ) / divisor s glcIsCurrency1) *
        ((multiplier s glcIsCurrency1 : ℚ) / divisor s glcIsCurrency1) := by
  have hpos : (s.toNat : ℚ) ≠ 0 :=
    Nat.cast_ne_zero.mpr fun h => hs (BitVec.eq_of_toNat_eq h)
  cases glcIsCurrency1 with
  | true =>
    simp only [exactPrice, multiplier, divisor, if_true]
    push_cast
    field_simp
    norm_num
  | false =>
    simp only [exactPrice, multiplier, divisor, Bool.false_eq_true, if_false]
    push_cast
    field_simp
    norm_num

/-- The first floor is amplified by the second quotient. -/
theorem secondQuotient_fallsShort {s : U128} (hs : s ≠ 0) (ethUsd : U64) (glcIsCurrency1 : Bool) :
    Floors.FallsShort (exactPrice s ethUsd glcIsCurrency1) (rawError s glcIsCurrency1)
      (secondQuotient s ethUsd glcIsCurrency1) := by
  have hdivisor := divisor_pos hs glcIsCurrency1
  have hfirst : Floors.FallsShort (K := ℚ) _ 1 (firstQuotient s ethUsd glcIsCurrency1) :=
    .quotient ethUsd.val (multiplier s glcIsCurrency1) hdivisor
  have hsecond := hfirst.mul_div (multiplier s glcIsCurrency1) hdivisor
  rw [exactPrice_eq hs]
  refine hsecond.mono (le_of_eq ?_)
  rw [rawError, one_mul, add_comm]
  cases glcIsCurrency1 <;> norm_num [multiplier, divisor]

theorem unitScale_of_le {glcDec ethDec : UInt8} (h : ethDec ≤ glcDec) :
    unitScale glcDec ethDec = (10 ^ (glcDec.toNat - ethDec.toNat) : ℕ) := by
  have hle : ethDec.toNat ≤ glcDec.toNat := UInt8.le_iff_toNat_le.mp h
  rw [unitScale, ← Nat.cast_sub hle, zpow_natCast]
  norm_num

theorem unitScale_of_lt {glcDec ethDec : UInt8} (h : ¬ ethDec ≤ glcDec) :
    unitScale glcDec ethDec = (1 : ℕ) / (10 ^ (ethDec.toNat - glcDec.toNat) : ℕ) := by
  have hle : glcDec.toNat ≤ ethDec.toNat := by
    have := mt UInt8.le_iff_toNat_le.mpr h
    omega
  rw [unitScale, ← neg_sub, ← Nat.cast_sub hle, zpow_neg, zpow_natCast]
  norm_num

/-- The adjustment scales the distance, and a division adds its floor. -/
theorem adjustedQuotient_fallsShort {x e : ℚ} {raw : ℕ} (h : Floors.FallsShort x e raw)
    (glcDec ethDec : UInt8) :
    Floors.FallsShort (x * unitScale glcDec ethDec) (e * unitScale glcDec ethDec + 1)
      (adjustedQuotient raw glcDec ethDec) := by
  rw [adjustedQuotient]
  by_cases hle : ethDec ≤ glcDec
  · rw [if_pos hle, unitScale_of_le hle]
    have hpower : 0 < 10 ^ (glcDec.toNat - ethDec.toNat) := by positivity
    exact (h.mul hpower).mono (le_add_of_nonneg_right zero_le_one)
  · have hdiv := h.mul_div 1 (d := 10 ^ (ethDec.toNat - glcDec.toNat)) (by positivity)
    rw [Nat.mul_one] at hdiv
    rw [if_neg hle, unitScale_of_lt hle]
    exact hdiv

theorem adjustedQuotient_self (raw : ℕ) (dec : UInt8) : adjustedQuotient raw dec dec = raw := by
  rw [adjustedQuotient, if_pos (UInt8.le_refl dec), Nat.sub_self, pow_zero, Nat.mul_one]

/-- The number that the price is, if it fits. -/
def priceQuotient (s : U128) (ethUsd : U64) (glcIsCurrency1 : Bool) (currency0 currency1 : UInt8) :
    ℕ :=
  adjustedQuotient (secondQuotient s ethUsd glcIsCurrency1)
    (decimals glcIsCurrency1 currency0 currency1).1 (decimals glcIsCurrency1 currency0 currency1).2

/-- A quotient of the price, or the price itself, is out of its range. -/
def OutOfRange (s : U128) (ethUsd : U64) (glcIsCurrency1 : Bool) (currency0 currency1 : UInt8) :
    Prop :=
  2 ^ 128 ≤ firstQuotient s ethUsd glcIsCurrency1 ∨
    2 ^ 128 ≤ secondQuotient s ethUsd glcIsCurrency1 ∨
    priceQuotient s ethUsd glcIsCurrency1 currency0 currency1 = 0 ∨
    2 ^ 64 ≤ priceQuotient s ethUsd glcIsCurrency1 currency0 currency1

theorem decimals_near {currency0 currency1 : UInt8} (h : Near currency0 currency1)
    (glcIsCurrency1 : Bool) :
    Near (decimals glcIsCurrency1 currency0 currency1).1
      (decimals glcIsCurrency1 currency0 currency1).2 := by
  cases glcIsCurrency1 with
  | true => exact ⟨h.2, h.1⟩
  | false => exact h

theorem glcUsd_of_zero {s : U128} {ethUsd : U64} (h : s = 0 ∨ ethUsd = 0) (glcIsCurrency1 : Bool)
    (currency0 currency1 : UInt8) :
    ∃ e, glcUsdFromSqrtPrice s ethUsd glcIsCurrency1 currency0 currency1 =
      .error (.refused e) := by
  unfold glcUsdFromSqrtPrice
  by_cases hs : s = 0
  · exact ⟨_, bind_eq_error.mpr (.inl (require_eq_error.mpr ⟨not_not.mpr hs, rfl⟩))⟩
  · have hethUsd := h.resolve_left hs
    refine ⟨.malformed "ETH/USD price is zero", ?_⟩
    rw [bind_eq_error]
    refine .inr ⟨(), require_eq_ok.mpr hs, ?_⟩
    rw [bind_eq_error]
    exact .inl (require_eq_error.mpr ⟨not_not.mpr hethUsd, rfl⟩)

/-- The price is its number, or a number of the way is out of its range. -/
theorem glcUsd_cases {currency0 currency1 : UInt8} (hnear : Near currency0 currency1) {s : U128}
    (hs : s ≠ 0) {ethUsd : U64} (hethUsd : ethUsd ≠ 0) (glcIsCurrency1 : Bool) :
    (∃ p, glcUsdFromSqrtPrice s ethUsd glcIsCurrency1 currency0 currency1 = .ok p ∧
        p.val = priceQuotient s ethUsd glcIsCurrency1 currency0 currency1) ∨
      (∃ e, glcUsdFromSqrtPrice s ethUsd glcIsCurrency1 currency0 currency1 =
        .error (.refused e)) ∧ OutOfRange s ethUsd glcIsCurrency1 currency0 currency1 := by
  unfold glcUsdFromSqrtPrice
  simp only [require, if_pos hs, if_pos hethUsd, bind, Except.bind]
  rcases rawPrice_cases hs ethUsd glcIsCurrency1 with
    (⟨raw, hraw, hrawv⟩ | ⟨what, hraw, hlarge⟩) | ⟨hlarge, what, hraw⟩
  · have hadjusted := adjusted_answers (decimals_near hnear glcIsCurrency1) raw
    rw [hrawv, ← priceQuotient] at hadjusted
    rcases hadjusted with ⟨price, hprice, hpricev⟩ | ⟨what, hprice, hlarge⟩
    · simp only [hraw, hprice]
      by_cases hzero : price = 0
      · have hnone : priceQuotient s ethUsd glcIsCurrency1 currency0 currency1 = 0 := by
          rw [← hpricev, hzero]
          rfl
        rw [if_neg (not_not.mpr hzero)]
        exact .inr ⟨⟨_, rfl⟩, .inr (.inr (.inl hnone))⟩
      · rw [if_pos hzero]
        by_cases hfits : price.toNat < 2 ^ 64
        · simp only [dif_pos hfits]
          exact .inl ⟨_, rfl, hpricev⟩
        · simp only [dif_neg hfits]
          exact .inr ⟨⟨_, rfl⟩, .inr (.inr (.inr (hpricev ▸ Nat.not_lt.mp hfits)))⟩
    · simp only [hraw, hprice]
      have hlarge' := le_trans (by decide : 2 ^ 64 ≤ 2 ^ 128) hlarge
      exact .inr ⟨⟨_, rfl⟩, .inr (.inr (.inr hlarge'))⟩
  · simp only [hraw]
    exact .inr ⟨⟨_, rfl⟩, .inr (.inl hlarge)⟩
  · simp only [hraw]
    exact .inr ⟨⟨_, rfl⟩, .inl hlarge⟩

end PoolPrice

open PoolPrice

/-- A price stays below the exact one by no more than what two floors cost, and
there is none only where the pool or the market reports zero, or where a number of
the way is out of its range. -/
theorem pool_price_accurate (s : U128) (ethUsd : U64) (glcIsCurrency1 : Bool)
    (currency0 currency1 : UInt8) (hnear : Near currency0 currency1) :
    (∀ p, glcUsdFromSqrtPrice s ethUsd glcIsCurrency1 currency0 currency1 = .ok p →
      s ≠ 0 ∧ ethUsd ≠ 0 ∧
      (currency0 = currency1 →
        Floors.FallsShort (exactPrice s ethUsd glcIsCurrency1) (rawError s glcIsCurrency1) p.val) ∧
      let unit := unitScale (decimals glcIsCurrency1 currency0 currency1).1
        (decimals glcIsCurrency1 currency0 currency1).2
      Floors.FallsShort (exactPrice s ethUsd glcIsCurrency1 * unit)
        (rawError s glcIsCurrency1 * unit + 1) p.val) ∧
    ∀ failure, glcUsdFromSqrtPrice s ethUsd glcIsCurrency1 currency0 currency1 = .error failure →
      (∃ e, failure = .refused e) ∧
        (s = 0 ∨ ethUsd = 0 ∨ OutOfRange s ethUsd glcIsCurrency1 currency0 currency1) := by
  constructor
  · intro p hok
    have h := hok
    simp only [glcUsdFromSqrtPrice, bind_eq_ok, require_eq_ok, exists_unit] at h
    obtain ⟨hs, hethUsd, -⟩ := h
    refine ⟨hs, hethUsd, ?_⟩
    rcases glcUsd_cases hnear hs hethUsd glcIsCurrency1 with ⟨p', hp', hval⟩ | ⟨⟨e, he⟩, -⟩
    · obtain rfl : p' = p := Except.ok.inj (hp'.symm.trans hok)
      have hraw := secondQuotient_fallsShort hs ethUsd glcIsCurrency1
      rw [hval, priceQuotient]
      refine ⟨fun hequal => ?_, adjustedQuotient_fallsShort hraw _ _⟩
      subst hequal
      have hdecimals : decimals glcIsCurrency1 currency0 currency0 = (currency0, currency0) := by
        cases glcIsCurrency1 <;> rfl
      rw [hdecimals, adjustedQuotient_self]
      exact hraw
    · rw [he] at hok
      exact absurd hok (by simp)
  · intro failure herror
    by_cases hs : s = 0
    · obtain ⟨e, he⟩ := glcUsd_of_zero (.inl hs) glcIsCurrency1 currency0 currency1
      exact ⟨⟨e, Except.error.inj (herror.symm.trans he)⟩, .inl hs⟩
    · by_cases hethUsd : ethUsd = 0
      · obtain ⟨e, he⟩ := glcUsd_of_zero (.inr hethUsd) glcIsCurrency1 currency0 currency1
        exact ⟨⟨e, Except.error.inj (herror.symm.trans he)⟩, .inr (.inl hethUsd)⟩
      · rcases glcUsd_cases hnear hs hethUsd glcIsCurrency1 with ⟨p, hp, -⟩ | ⟨⟨e, he⟩, hrange⟩
        · rw [hp] at herror
          exact absurd herror (by simp)
        · exact ⟨⟨e, Except.error.inj (herror.symm.trans he)⟩, .inr (.inr hrange)⟩

theorem pool_price_accurate_sample :
    glcUsdFromSqrtPrice (.ofNat 128 (1000 * 2 ^ 96)) 2500000000000000 true 18 18 =
        .ok 2500000000 ∧
      Floors.FallsShort (exactPrice (.ofNat 128 (1000 * 2 ^ 96)) 2500000000000000 true)
        (rawError (.ofNat 128 (1000 * 2 ^ 96)) true) 2500000000 := by
  have hok : glcUsdFromSqrtPrice (.ofNat 128 (1000 * 2 ^ 96)) 2500000000000000 true 18 18 =
      .ok 2500000000 := by
    decide +kernel
  have hnear : Near 18 18 := ⟨by decide, by decide⟩
  exact ⟨hok, ((pool_price_accurate _ _ true 18 18 hnear).1 _ hok).2.2.1 rfl⟩

end Service
