-- SUMMARY: The inverse of the fee rule with its two correction loops, the conversions between the units of the three chains, and their exactness.
import ReserveBridge.Lib.ExactScaling
import ReserveBridge.Service.DepositBound

/-!
# Fee inversion and unit conversion

`service/src/amount_conversion.rs` and
`service/src/amount_conversion/robinhood.rs`. The largest gross for a net is
estimated by a quotient and then walked to the boundary. Amounts of one unit become
amounts of another only where nothing is rounded.
-/

namespace Service
open Guard

/-! ## The inverse of the fee rule -/

namespace FeeInversion

/-- The closure `net_of`. -/
def netOf (feeBps : ℕ) (gross : U64) : Except ConversionError U64 := do
  let fb ← computeFeeAtBps gross feeBps
  return fb.net

/-- The loop that walks down while the gross delivers too much. -/
def walkDown (feeBps : ℕ) (maxNet : U64) : (gross : ℕ) → gross < 2 ^ 64 → Except ConversionError U64
  | 0, h => .ok ⟨0, h⟩
  | gross + 1, h => do
    let net ← netOf feeBps ⟨gross + 1, h⟩
    if maxNet < net then walkDown feeBps maxNet gross (Nat.lt_of_succ_lt h)
    else return ⟨gross + 1, h⟩

/-- The loop that walks up while the next gross still fits. `remaining` is how often
`checked_add` succeeds. -/
def walkUp (feeBps : ℕ) (maxNet : U64) : (remaining : ℕ) → U64 → U64
  | 0, gross => gross
  | remaining + 1, gross =>
    match netOf feeBps (gross + 1) with
    | .ok net => if net ≤ maxNet then walkUp feeBps maxNet remaining (gross + 1) else gross
    | .error _ => gross

end FeeInversion

open FeeInversion in
/-- `max_gross_for_net_at_bps`. -/
def maxGrossForNetAtBps (maxNet : U64) (feeBps : ℕ) : Except ConversionError U64 := do
  require (feeBps ≤ bpsDenominator) (.feeBpsOutOfRange feeBps bpsDenominator)
  if maxNet = 0 ∨ feeBps = bpsDenominator then return 0
  else
    let estimate := maxNet.val * bpsDenominator / (bpsDenominator - feeBps)
    let start ← narrow estimate (.overflow maxNet)
    let gross ← walkDown feeBps maxNet start.val start.isLt
    return walkUp feeBps maxNet (2 ^ 64 - 1 - gross.val) gross

namespace FeeInversion

/-- The net of a gross, where the fee rule has one. -/
def netValue (feeBps gross : ℕ) : ℕ := gross - gross * feeBps / bpsDenominator

/-- The estimate, as a number. -/
def boundary (maxNet : U64) (feeBps : ℕ) : ℕ :=
  maxNet.val * bpsDenominator / (bpsDenominator - feeBps)

/-- The estimate is the boundary: the fee is floored, so the net is the quotient
rounded up. -/
theorem netValue_le_iff {feeBps : ℕ} (hbps : feeBps < bpsDenominator) (maxNet : U64) (gross : ℕ) :
    netValue feeBps gross ≤ maxNet.val ↔ gross ≤ boundary maxNet feeBps := by
  have hpos : 0 < bpsDenominator - feeBps := Nat.sub_pos_of_lt hbps
  have hten : bpsDenominator = 10000 := rfl
  have hsplit : gross * (bpsDenominator - feeBps) + gross * feeBps = gross * bpsDenominator := by
    rw [← Nat.mul_add, Nat.sub_add_cancel hbps.le]
  rw [boundary, Nat.le_div_iff_mul_le hpos, netValue]
  rw [hten] at hsplit ⊢
  omega

theorem netOf_eq {feeBps : ℕ} (hbps : feeBps < bpsDenominator) {gross : U64}
    (h : gross.val * feeBps < 2 ^ 64) :
    ∃ net, netOf feeBps gross = .ok net ∧ net.val = netValue feeBps gross.val := by
  obtain ⟨fb, hfb⟩ := computeFeeAtBps_of_lt hbps.le h
  refine ⟨fb.net, ?_, (computeFeeAtBps_eq_ok hfb).2.2.2.2⟩
  rw [netOf, hfb]
  rfl

theorem netOf_eq_error {feeBps : ℕ} (hbps : feeBps < bpsDenominator) {gross : U64}
    (h : 2 ^ 64 ≤ gross.val * feeBps) : netOf feeBps gross = .error (.overflow gross) := by
  rw [netOf, computeFeeAtBps_of_le hbps.le h]
  rfl

/-- The walk down stands still at the boundary, or fails with its fee product. -/
theorem walkDown_boundary {feeBps : ℕ} (hbps : feeBps < bpsDenominator) {maxNet start : U64}
    (hstart : start.val = boundary maxNet feeBps) (hpos : 0 < start.val) :
    walkDown feeBps maxNet start.val start.isLt =
      if start.val * feeBps < 2 ^ 64 then .ok start else .error (.overflow start) := by
  obtain ⟨start, hlt⟩ := start
  cases start with
  | zero => exact absurd hpos (lt_irrefl 0)
  | succ gross =>
    rw [walkDown]
    split_ifs with hfits
    · obtain ⟨net, hnet, hval⟩ := netOf_eq hbps hfits
      have hle : ¬ maxNet < net := by
        rw [Fin.lt_def, hval]
        exact Nat.not_lt.mpr ((netValue_le_iff hbps maxNet _).mpr hstart.le)
      simp only [bind_eq_ok]
      refine ⟨net, hnet, ?_⟩
      rw [if_neg hle]
      rfl
    · rw [netOf_eq_error hbps (Nat.not_lt.mp hfits)]
      rfl

/-- The walk up stands still at the boundary, too. -/
theorem walkUp_boundary {feeBps : ℕ} (hbps : feeBps < bpsDenominator) {maxNet gross : U64}
    (hgross : gross.val = boundary maxNet feeBps) :
    walkUp feeBps maxNet (2 ^ 64 - 1 - gross.val) gross = gross := by
  cases hremaining : 2 ^ 64 - 1 - gross.val with
  | zero => rfl
  | succ remaining =>
    have hnext : (gross + 1).val = gross.val + 1 := by
      rw [Fin.val_add]
      exact Nat.mod_eq_of_lt (show gross.val + 1 < 2 ^ 64 by omega)
    rw [walkUp]
    by_cases hfits : (gross + 1).val * feeBps < 2 ^ 64
    · obtain ⟨net, hnet, hval⟩ := netOf_eq hbps hfits
      have hlarge : ¬ net ≤ maxNet := by
        rw [Fin.le_def, hval, netValue_le_iff hbps, hnext, ← hgross]
        exact Nat.not_succ_le_self _
      rw [hnet]
      exact if_neg hlarge
    · rw [netOf_eq_error hbps (Nat.not_lt.mp hfits)]

/-- The result is the boundary. -/
theorem maxGross_eq {feeBps : ℕ} (hbps : feeBps < bpsDenominator) {maxNet : U64}
    (hpos : maxNet ≠ 0) :
    maxGrossForNetAtBps maxNet feeBps =
      if h : boundary maxNet feeBps < 2 ^ 64 then
        if boundary maxNet feeBps * feeBps < 2 ^ 64 then .ok ⟨boundary maxNet feeBps, h⟩
        else .error (.overflow ⟨boundary maxNet feeBps, h⟩)
      else .error (.overflow maxNet) := by
  have hnone : ¬ (maxNet = 0 ∨ feeBps = bpsDenominator) := not_or.mpr ⟨hpos, hbps.ne⟩
  have hstart : 0 < boundary maxNet feeBps := by
    apply Nat.pos_of_ne_zero
    intro hzero
    have hle := (netValue_le_iff hbps maxNet 1).not.mpr (by omega)
    have hone : 0 < maxNet.val := Nat.pos_of_ne_zero fun h => hpos (Fin.ext h)
    exact hle ((Nat.sub_le _ _).trans hone)
  simp only [maxGrossForNetAtBps, require, if_pos hbps.le, if_neg hnone, bind, Except.bind]
  rw [← boundary]
  split_ifs with hwidth hfee
  · have hdown := walkDown_boundary hbps (show (⟨_, hwidth⟩ : U64).val = _ from rfl) hstart
    have hup := walkUp_boundary hbps (show (⟨_, hwidth⟩ : U64).val = _ from rfl)
    rw [narrow_of_lt hwidth]
    simp only []
    rw [hdown, if_pos hfee]
    simp only []
    rw [hup]
    rfl
  · have hdown := walkDown_boundary hbps (show (⟨_, hwidth⟩ : U64).val = _ from rfl) hstart
    rw [narrow_of_lt hwidth]
    simp only []
    rw [hdown, if_neg hfee]
  · rw [narrow_of_le (Nat.not_lt.mp hwidth)]

end FeeInversion

/-! ## The units of the chains -/

/-- `RobinhoodAtomic`. -/
structure RobinhoodAtomic where
  get : Fin (2 ^ 128)
  deriving DecidableEq

/-- The failures of `RobinhoodConversionError` that a conversion ends in. -/
inductive RobinhoodConversionError
  | wideningOverflow (canonical : U64) (scaleExponent : ℕ)
  | notExactlyRepresentable (robinhood : Fin (2 ^ 128)) (remainder : ℕ)
  | canonicalOverflow (robinhood : Fin (2 ^ 128)) (canonical : ℕ)
  deriving DecidableEq

namespace RobinhoodAtomic

/-- `ROBINHOOD_DECIMALS`. -/
def robinhoodDecimals : ℕ := 18

/-- `CANONICAL_TO_ROBINHOOD_SCALE`. -/
def canonicalToRobinhoodScale : ℕ := 10000000000

/-- `from_canonical`. -/
def fromCanonical (canonical : U64) : Except RobinhoodConversionError RobinhoodAtomic :=
  if h : canonical.val * canonicalToRobinhoodScale < 2 ^ 128 then .ok ⟨⟨_, h⟩⟩
  else .error (.wideningOverflow canonical (robinhoodDecimals - goldcoinDecimals))

/-- `to_canonical`. -/
def toCanonical (r : RobinhoodAtomic) : Except RobinhoodConversionError U64 := do
  let remainder := r.get.val % canonicalToRobinhoodScale
  require (remainder = 0) (.notExactlyRepresentable r.get remainder)
  let canonical := r.get.val / canonicalToRobinhoodScale
  if h : canonical < 2 ^ 64 then return ⟨canonical, h⟩
  else .error (.canonicalOverflow r.get canonical)

/-- `CanonicalFloor`. -/
structure CanonicalFloor where
  canonical : U64
  remainder : ℕ
  deriving DecidableEq

/-- `to_canonical_floor`. -/
def toCanonicalFloor (r : RobinhoodAtomic) : Except RobinhoodConversionError CanonicalFloor := do
  let remainder := r.get.val % canonicalToRobinhoodScale
  let canonical ← toCanonical ⟨⟨r.get.val - remainder, (Nat.sub_le _ _).trans_lt r.get.isLt⟩⟩
  return ⟨canonical, remainder⟩

end RobinhoodAtomic

/-! ## The law of the conversions -/

open ExactScaling

/-- The value of an amount, in its own unit. -/
def canonicalValue (amount : U64) : ℚ := amount.val
def robinhoodValue (r : RobinhoodAtomic) : ℚ := r.get.val

/-- The factor from one number of decimals to another. -/
def decimalFactor (fromDecimals toDecimals : ℕ) : ℚ := 10 ^ ((toDecimals : ℤ) - fromDecimals)

theorem decimalFactor_ne_zero (fromDecimals toDecimals : ℕ) :
    decimalFactor fromDecimals toDecimals ≠ 0 := zpow_ne_zero _ (by norm_num)

theorem decimalFactor_inv (fromDecimals toDecimals : ℕ) :
    (decimalFactor fromDecimals toDecimals)⁻¹ = decimalFactor toDecimals fromDecimals := by
  rw [decimalFactor, decimalFactor, ← zpow_neg, neg_sub]

theorem decimalFactor_of_le {fromDecimals toDecimals : ℕ} (h : fromDecimals ≤ toDecimals) :
    decimalFactor fromDecimals toDecimals = (10 ^ (toDecimals - fromDecimals) : ℕ) := by
  rw [decimalFactor, ← Nat.cast_sub h, zpow_natCast]
  norm_num

/-- A power of ten in 64 bits. -/
theorem pow_lt_u64 {n : ℕ} (h : n ≤ 19) : 10 ^ n < 2 ^ 64 :=
  (Nat.pow_le_pow_right (by decide) h).trans_lt (by decide)

/-- Division by a factor, in natural numbers. -/
theorem eq_mul_inv_iff {a b : ℕ} {scale : ℕ} (h : 0 < scale) :
    (b : ℚ) = a * (scale : ℚ)⁻¹ ↔ a % scale = 0 ∧ a / scale = b := by
  have hscale : (scale : ℚ) ≠ 0 := Nat.cast_ne_zero.mpr h.ne'
  rw [eq_mul_inv_iff_mul_eq₀ hscale, ← Nat.cast_mul, Nat.cast_inj]
  constructor
  · rintro rfl
    exact ⟨Nat.mul_mod_left _ _, Nat.mul_div_cancel _ h⟩
  · rintro ⟨hmod, rfl⟩
    exact Nat.div_mul_cancel (Nat.dvd_of_mod_eq_zero hmod)

theorem convertAtomicAmount_scales {fromDecimals toDecimals : ℕ}
    (hto : toDecimals ≤ fromDecimals + 19) (hfrom : fromDecimals ≤ toDecimals + 19) :
    Scales canonicalValue canonicalValue (decimalFactor fromDecimals toDecimals)
      fun amount => convertAtomicAmount amount fromDecimals toDecimals := by
  intro amount result
  simp only [convertAtomicAmount, canonicalValue]
  split_ifs with hequal hless
  · subst hequal
    rw [decimalFactor, sub_self, zpow_zero, mul_one, Nat.cast_inj, Except.ok.injEq, ← Fin.ext_iff,
      eq_comm]
  · have hscale := pow_lt_u64 (show toDecimals - fromDecimals ≤ 19 by omega)
    rw [narrow_of_lt hscale, decimalFactor_of_le hless.le, ← Nat.cast_mul, Nat.cast_inj]
    simp only [bind, Except.bind]
    exact narrow_eq_ok.trans eq_comm
  · have hle : toDecimals ≤ fromDecimals := Nat.not_lt.mp hless
    have hscale := pow_lt_u64 (show fromDecimals - toDecimals ≤ 19 by omega)
    have hpos : 0 < 10 ^ (fromDecimals - toDecimals) := Nat.pow_pos (by decide)
    rw [narrow_of_lt hscale, ← decimalFactor_inv, decimalFactor_of_le hle, eq_mul_inv_iff hpos]
    simp only [bind_eq_ok, require_eq_ok, exists_unit, pure_eq_ok]
    constructor
    · rintro ⟨scale, hs, hmod, rfl⟩
      obtain rfl := Except.ok.inj hs
      exact ⟨hmod, rfl⟩
    · rintro ⟨hmod, hdiv⟩
      exact ⟨_, rfl, hmod, Fin.ext hdiv⟩

/-- The exponent of the scale between the ledger and Robinhood. -/
theorem robinhoodFactor_eq :
    decimalFactor goldcoinDecimals RobinhoodAtomic.robinhoodDecimals =
      (RobinhoodAtomic.canonicalToRobinhoodScale : ℕ) := by
  rw [decimalFactor_of_le (by decide)]
  rfl

/-- Widening does not fail. -/
theorem fromCanonical_eq (canonical : U64) :
    ∃ r, RobinhoodAtomic.fromCanonical canonical = .ok r ∧
      r.get.val = canonical.val * RobinhoodAtomic.canonicalToRobinhoodScale := by
  have hlt : canonical.val * RobinhoodAtomic.canonicalToRobinhoodScale < 2 ^ 128 := by
    have := canonical.isLt
    rw [RobinhoodAtomic.canonicalToRobinhoodScale]
    omega
  exact ⟨⟨⟨_, hlt⟩⟩, dif_pos hlt, rfl⟩

theorem fromCanonical_scales :
    Scales canonicalValue robinhoodValue
      (decimalFactor goldcoinDecimals RobinhoodAtomic.robinhoodDecimals)
      RobinhoodAtomic.fromCanonical := by
  intro canonical r
  obtain ⟨r', hr', hval⟩ := fromCanonical_eq canonical
  rw [robinhoodFactor_eq, hr', Except.ok.injEq, canonicalValue, robinhoodValue, ← Nat.cast_mul,
    Nat.cast_inj, ← hval]
  constructor
  · rintro rfl
    rfl
  · intro h
    cases r
    cases r'
    exact congrArg RobinhoodAtomic.mk (Fin.ext h.symm)

theorem toCanonical_scales :
    Scales robinhoodValue canonicalValue
      (decimalFactor goldcoinDecimals RobinhoodAtomic.robinhoodDecimals)⁻¹
      RobinhoodAtomic.toCanonical := by
  intro r canonical
  rw [robinhoodFactor_eq, canonicalValue, robinhoodValue, eq_mul_inv_iff (by decide)]
  simp only [RobinhoodAtomic.toCanonical, bind_eq_ok, require_eq_ok, exists_unit]
  apply and_congr_right
  intro hmod
  split_ifs with hfits
  · rw [pure_eq_ok, Fin.ext_iff]
  · refine iff_of_false (by simp) fun hval => hfits ?_
    rw [hval]
    exact canonical.isLt

/-- The floor of a balance keeps the whole balance. -/
theorem toCanonicalFloor_eq_ok {r : RobinhoodAtomic} {floor : RobinhoodAtomic.CanonicalFloor}
    (h : r.toCanonicalFloor = .ok floor) :
    r.get.val = floor.canonical.val * RobinhoodAtomic.canonicalToRobinhoodScale + floor.remainder ∧
      floor.remainder < RobinhoodAtomic.canonicalToRobinhoodScale := by
  simp only [RobinhoodAtomic.toCanonicalFloor, bind_eq_ok, pure_eq_ok] at h
  obtain ⟨canonical, hcanonical, rfl⟩ := h
  simp only [RobinhoodAtomic.toCanonical, bind_eq_ok, require_eq_ok, exists_unit] at hcanonical
  obtain ⟨hmod, hcanonical⟩ := hcanonical
  split_ifs at hcanonical
  obtain rfl := Except.ok.inj hcanonical
  have hdivmod := Nat.div_add_mod' (r.get.val) RobinhoodAtomic.canonicalToRobinhoodScale
  have hremainder := Nat.mod_lt r.get.val (show 0 < RobinhoodAtomic.canonicalToRobinhoodScale by decide)
  refine ⟨?_, hremainder⟩
  simp only [Nat.div_mul_cancel (Nat.dvd_of_mod_eq_zero hmod)]
  omega

/-- A conversion on the way to another does not change the result. -/
theorem convertAtomicAmount_trans {a b c : ℕ} {amount between result : U64}
    (hac : a ≤ c + 19) (hca : c ≤ a + 19) (hab : a ≤ b + 19) (hba : b ≤ a + 19)
    (hbc : b ≤ c + 19) (hcb : c ≤ b + 19) (hfirst : convertAtomicAmount amount a b = .ok between)
    (hsecond : convertAtomicAmount between b c = .ok result) :
    convertAtomicAmount amount a c = .ok result := by
  apply (convertAtomicAmount_scales hca hac amount result).mpr
  have hcomp := (convertAtomicAmount_scales hba hab).comp (convertAtomicAmount_scales hcb hbc)
    hfirst hsecond
  have hfactor : decimalFactor a b * decimalFactor b c = decimalFactor a c := by
    have hten : (10 : ℚ) ≠ 0 := by norm_num
    rw [decimalFactor, decimalFactor, decimalFactor, ← zpow_add₀ hten]
    congr 1
    ring
  rwa [hfactor] at hcomp

/-- The converted amount is the scaled value, where that is a number of 64 bits. -/
theorem convertAtomicAmount_succeeds_iff {fromDecimals toDecimals : ℕ}
    (hto : toDecimals ≤ fromDecimals + 19) (hfrom : fromDecimals ≤ toDecimals + 19)
    (amount : U64) :
    (∃ result, convertAtomicAmount amount fromDecimals toDecimals = .ok result) ↔
      ∃ n : ℕ, n < 2 ^ 64 ∧ (n : ℚ) = amount.val * decimalFactor fromDecimals toDecimals := by
  rw [(convertAtomicAmount_scales hto hfrom).succeeds_iff amount]
  constructor
  · rintro ⟨result, hresult⟩
    exact ⟨result.val, result.isLt, hresult⟩
  · rintro ⟨n, hn, hvalue⟩
    exact ⟨⟨n, hn⟩, hvalue⟩

theorem toCanonical_succeeds_iff (r : RobinhoodAtomic) :
    (∃ canonical, r.toCanonical = .ok canonical) ↔
      ∃ n : ℕ, n < 2 ^ 64 ∧
        (n : ℚ) * decimalFactor goldcoinDecimals RobinhoodAtomic.robinhoodDecimals = r.get.val := by
  have hfactor := decimalFactor_ne_zero goldcoinDecimals RobinhoodAtomic.robinhoodDecimals
  rw [toCanonical_scales.succeeds_iff r]
  constructor
  · rintro ⟨canonical, hcanonical⟩
    exact ⟨canonical.val, canonical.isLt, (eq_mul_inv_iff_mul_eq₀ hfactor).mp hcanonical⟩
  · rintro ⟨n, hn, hvalue⟩
    exact ⟨⟨n, hn⟩, (eq_mul_inv_iff_mul_eq₀ hfactor).mpr hvalue⟩

open FeeInversion

theorem maxGross_spec {maxNet : U64} {feeBps : ℕ} (hbps : feeBps < bpsDenominator)
    (hpos : maxNet ≠ 0) {g : U64} (h : maxGrossForNetAtBps maxNet feeBps = .ok g) :
    (∃ fb, computeFeeAtBps g feeBps = .ok fb ∧ fb.net ≤ maxNet) ∧
      ∀ above, g < above →
        (∃ fb, computeFeeAtBps above feeBps = .ok fb ∧ maxNet < fb.net) ∨
          computeFeeAtBps above feeBps = .error (.overflow above) := by
  rw [maxGross_eq hbps hpos] at h
  split_ifs at h with hwidth hfee
  obtain rfl := Except.ok.inj h
  constructor
  · obtain ⟨fb, hfb⟩ : ∃ fb, computeFeeAtBps ⟨boundary maxNet feeBps, hwidth⟩ feeBps = .ok fb :=
      computeFeeAtBps_of_lt hbps.le hfee
    refine ⟨fb, hfb, ?_⟩
    rw [Fin.le_def, (computeFeeAtBps_eq_ok hfb).2.2.2.2]
    exact (netValue_le_iff hbps maxNet _).mpr le_rfl
  · intro above habove
    by_cases hfits : above.val * feeBps < 2 ^ 64
    · obtain ⟨fb, hfb⟩ := computeFeeAtBps_of_lt hbps.le hfits
      refine .inl ⟨fb, hfb, ?_⟩
      rw [Fin.lt_def, (computeFeeAtBps_eq_ok hfb).2.2.2.2]
      exact Nat.not_le.mp (mt (netValue_le_iff hbps maxNet _).mp (Nat.not_le.mpr habove))
    · exact .inr (computeFeeAtBps_of_le hbps.le (Nat.not_lt.mp hfits))

/-- The fee rule is inverted at its exact boundary, and every conversion of a unit is
the exact scaling or a failure. -/
theorem conversions_exact :
    (∀ (maxNet : U64) (feeBps : ℕ), maxNet ≠ 0 → feeBps < bpsDenominator →
      (∀ g, maxGrossForNetAtBps maxNet feeBps = .ok g →
        (∃ fb, computeFeeAtBps g feeBps = .ok fb ∧ fb.net ≤ maxNet) ∧
        ∀ above, g < above →
          (∃ fb, computeFeeAtBps above feeBps = .ok fb ∧ maxNet < fb.net) ∨
            computeFeeAtBps above feeBps = .error (.overflow above)) ∧
      ∃ b : ℕ, (∀ gross, netValue feeBps gross ≤ maxNet.val ↔ gross ≤ b) ∧
        ((∃ e, maxGrossForNetAtBps maxNet feeBps = .error e) →
          2 ^ 64 ≤ b ∨ 2 ^ 64 ≤ b * feeBps)) ∧
    (∀ (amount : U64) (fromDecimals toDecimals : ℕ), toDecimals ≤ fromDecimals + 19 →
      fromDecimals ≤ toDecimals + 19 →
      ((∃ result, convertAtomicAmount amount fromDecimals toDecimals = .ok result) ↔
        ∃ n : ℕ, n < 2 ^ 64 ∧ (n : ℚ) = amount.val * decimalFactor fromDecimals toDecimals) ∧
      ∀ result, convertAtomicAmount amount fromDecimals toDecimals = .ok result →
        (result.val : ℚ) = amount.val * decimalFactor fromDecimals toDecimals ∧
          convertAtomicAmount result toDecimals fromDecimals = .ok amount) ∧
    (∀ canonical : U64, ∃ r, RobinhoodAtomic.fromCanonical canonical = .ok r ∧
      (r.get.val : ℚ) =
        canonical.val * decimalFactor goldcoinDecimals RobinhoodAtomic.robinhoodDecimals ∧
      r.toCanonical = .ok canonical) ∧
    (∀ r : RobinhoodAtomic,
      ((∃ canonical, r.toCanonical = .ok canonical) ↔
        ∃ n : ℕ, n < 2 ^ 64 ∧
          (n : ℚ) * decimalFactor goldcoinDecimals RobinhoodAtomic.robinhoodDecimals =
            r.get.val) ∧
      ∀ canonical, r.toCanonical = .ok canonical →
        (canonical.val : ℚ) * decimalFactor goldcoinDecimals RobinhoodAtomic.robinhoodDecimals =
            r.get.val ∧
          RobinhoodAtomic.fromCanonical canonical = .ok r) := by
  have hfactor := decimalFactor_ne_zero goldcoinDecimals RobinhoodAtomic.robinhoodDecimals
  refine ⟨fun maxNet feeBps hpos hbps => ⟨fun g => maxGross_spec hbps hpos, ?_⟩,
    fun amount fromDecimals toDecimals hto hfrom => ?_, fun canonical => ?_, fun r => ?_⟩
  · refine ⟨boundary maxNet feeBps, netValue_le_iff hbps maxNet, ?_⟩
    rintro ⟨e, he⟩
    rw [maxGross_eq hbps hpos] at he
    split_ifs at he with hwidth hfee
    · exact .inr (Nat.not_lt.mp hfee)
    · exact .inl (Nat.not_lt.mp hwidth)
  · refine ⟨convertAtomicAmount_succeeds_iff hto hfrom amount, fun result hresult => ?_⟩
    have hscales := convertAtomicAmount_scales hto hfrom
    have hback := convertAtomicAmount_scales hfrom hto
    rw [← decimalFactor_inv] at hback
    exact ⟨(hscales amount result).mp hresult,
      hscales.round_trip hback (decimalFactor_ne_zero _ _) hresult⟩
  · obtain ⟨r, hr, -⟩ := fromCanonical_eq canonical
    exact ⟨r, hr, (fromCanonical_scales canonical r).mp hr,
      fromCanonical_scales.round_trip toCanonical_scales hfactor hr⟩
  · refine ⟨toCanonical_succeeds_iff r, fun canonical hcanonical => ?_⟩
    have hvalue := (toCanonical_scales r canonical).mp hcanonical
    have hback : Scales canonicalValue robinhoodValue
        (decimalFactor goldcoinDecimals RobinhoodAtomic.robinhoodDecimals)⁻¹⁻¹
        RobinhoodAtomic.fromCanonical := by
      rw [inv_inv]
      exact fromCanonical_scales
    exact ⟨(eq_mul_inv_iff_mul_eq₀ hfactor).mp hvalue,
      toCanonical_scales.round_trip hback (inv_ne_zero hfactor) hcanonical⟩

theorem conversions_exact_sample :
    maxGrossForNetAtBps 97 300 = .ok 100 ∧
      (∃ fb, computeFeeAtBps 100 300 = .ok fb ∧ fb.net ≤ 97) ∧
      convertAtomicAmount 12300 8 6 = .ok 123 ∧ convertAtomicAmount 123 6 8 = .ok 12300 := by
  have hgross : maxGrossForNetAtBps 97 300 = .ok 100 := by
    decide +kernel
  have hconvert : convertAtomicAmount 12300 8 6 = .ok 123 := by
    decide +kernel
  refine ⟨hgross, ?_, hconvert, ?_⟩
  · exact ((conversions_exact.1 97 300 (by decide) (by decide)).1 100 hgross).1
  · exact ((conversions_exact.2.1 12300 8 6 (by decide) (by decide)).2 123 hconvert).2

end Service
