-- SUMMARY: The 256-bit product and the long division of the bridge rate, bit by bit as the service computes them, and their exactness.
import ReserveBridge.Lib.Limbs
import ReserveBridge.Service.BridgeRate

/-!
# Wide integers

`service/src/bridge_rate/bigmath.rs`. Here a sum, a difference or a product that
does not fit its width, and a shift by the width or more, ends the evaluation, as
in a build with overflow checks. None does, so the release build, which has no
checks, computes the same. Shifts drop bits without a check.
-/

namespace Service
open Guard

/-! ## Machine words -/

abbrev U128 := BitVec 128

/-- `u128::from`. -/
def U64.wide (x : U64) : U128 := BitVec.ofNat 128 x.val

/-- What ends an evaluation. -/
inductive Panic
  | overflow
  deriving DecidableEq

namespace U128

def add (x y : U128) : Except Panic U128 := do
  require (x.toNat + y.toNat < 2 ^ 128) .overflow
  return x + y

def sub (x y : U128) : Except Panic U128 := do
  require (y ≤ x) .overflow
  return x - y

def mul (x y : U128) : Except Panic U128 := do
  require (x.toNat * y.toNat < 2 ^ 128) .overflow
  return x * y

def shl (x : U128) (n : ℕ) : Except Panic U128 := do
  require (n < 128) .overflow
  return x <<< n

def shr (x : U128) (n : ℕ) : Except Panic U128 := do
  require (n < 128) .overflow
  return x >>> n

/-- `u64::MAX`, as the mask of a lower limb. -/
def lowMask : U128 := BitVec.ofNat 128 (2 ^ 64 - 1)

end U128

/-! ## The two operations -/

/-- `U256`, the more significant limb first. -/
structure U256 where
  hi : U128
  lo : U128
  deriving DecidableEq

namespace U256

def zero : U256 := ⟨0, 0⟩

/-- `from_u128`. -/
def fromU128 (lo : U128) : U256 := ⟨0, lo⟩

/-- The number that the limbs write. -/
def toNat (n : U256) : ℕ := n.hi.toNat * 2 ^ 128 + n.lo.toNat

/-- The derived order: by the limbs, the more significant first. -/
def Le (a b : U256) : Prop := a.hi < b.hi ∨ a.hi = b.hi ∧ a.lo ≤ b.lo

instance (a b : U256) : Decidable (a.Le b) := inferInstanceAs (Decidable (_ ∨ _))

/-- `mul_u128`. -/
def mulU128 (a b : U128) : Except Panic U256 := do
  let aHi := a >>> 64
  let aLo := a &&& U128.lowMask
  let bHi := b >>> 64
  let bLo := b &&& U128.lowMask
  let ll ← U128.mul aLo bLo
  let lh ← U128.mul aLo bHi
  let hl ← U128.mul aHi bLo
  let hh ← U128.mul aHi bHi
  let carried ← U128.add (ll >>> 64) (lh &&& U128.lowMask)
  let mid ← U128.add carried (hl &&& U128.lowMask)
  let lo := (mid <<< 64) ||| (ll &&& U128.lowMask)
  let hi ← U128.add hh (lh >>> 64)
  let hi ← U128.add hi (hl >>> 64)
  let hi ← U128.add hi (mid >>> 64)
  return ⟨hi, lo⟩

/-- `shift_left`. The debug assertions are not part of the build. -/
def shiftLeft (n : U256) (shift : ℕ) : Except Panic U256 :=
  if shift = 0 then .ok n
  else if 128 ≤ shift then do
    let hi ← U128.shl n.lo (shift - 128)
    return ⟨hi, 0⟩
  else do
    let high ← U128.shl n.hi shift
    let carried ← U128.shr n.lo (128 - shift)
    let low ← U128.shl n.lo shift
    return ⟨high ||| carried, low⟩

/-- `bit`. -/
def bit (n : U256) (i : ℕ) : Bool :=
  if 128 ≤ i then (n.hi >>> (i - 128)) &&& 1 = 1 else (n.lo >>> i) &&& 1 = 1

/-- The loop of `div_u128` over the bits below `i`. -/
def divLoop (n : U256) (divisor : U128) : ℕ → U128 → U128 → Option U128
  | 0, _, quotient => some quotient
  | i + 1, remainder, quotient =>
    let carry := remainder >>> 127
    let remainder := (remainder <<< 1) ||| (if n.bit i then 1 else 0)
    if carry = 1 ∨ divisor ≤ remainder then
      if 128 ≤ i then none
      else divLoop n divisor i (remainder - divisor) (quotient ||| ((1 : U128) <<< i))
    else divLoop n divisor i remainder quotient

/-- `div_u128`. -/
def divU128 (n : U256) (divisor : U128) : Option U128 :=
  if divisor = 0 then none else n.divLoop divisor 256 0 0

end U256

/-- `mul_div`. -/
def mulDiv (a b d : U128) : Except Panic (Option U128) := do
  let product ← U256.mulU128 a b
  return product.divU128 d

example : mulDiv (.twoPow 128 120) (.twoPow 128 120) (.twoPow 128 113) =
    .ok (some (.twoPow 128 127)) := by
  decide +kernel

/-! ## The checked operations -/

namespace U128

theorem add_eq {x y : U128} (h : x.toNat + y.toNat < 2 ^ 128) :
    ∃ z, add x y = .ok z ∧ z.toNat = x.toNat + y.toNat := by
  refine ⟨x + y, ?_, ?_⟩
  · simp only [add, bind_eq_ok, require_eq_ok, pure_eq_ok]
    exact ⟨(), h, trivial⟩
  · rw [BitVec.toNat_add, Nat.mod_eq_of_lt h]

theorem sub_eq {x y : U128} (h : y.toNat ≤ x.toNat) :
    ∃ z, sub x y = .ok z ∧ z.toNat = x.toNat - y.toNat := by
  refine ⟨x - y, ?_, ?_⟩
  · simp only [sub, bind_eq_ok, require_eq_ok, pure_eq_ok]
    exact ⟨(), BitVec.le_def.mpr h, trivial⟩
  · exact BitVec.toNat_sub_of_le (BitVec.le_def.mpr h)

theorem mul_eq {x y : U128} (h : x.toNat * y.toNat < 2 ^ 128) :
    ∃ z, mul x y = .ok z ∧ z.toNat = x.toNat * y.toNat := by
  refine ⟨x * y, ?_, ?_⟩
  · simp only [mul, bind_eq_ok, require_eq_ok, pure_eq_ok]
    exact ⟨(), h, trivial⟩
  · rw [BitVec.toNat_mul, Nat.mod_eq_of_lt h]

/-! ## Halves of a word -/

theorem toNat_high (x : U128) : (x >>> 64).toNat = x.toNat / 2 ^ 64 := by
  rw [BitVec.toNat_ushiftRight, Nat.shiftRight_eq_div_pow]

theorem toNat_low (x : U128) : (x &&& lowMask).toNat = x.toNat % 2 ^ 64 := by
  rw [BitVec.toNat_and, ← Nat.and_two_pow_sub_one_eq_mod]
  rfl

/-- The lower half of one word above the lower half of another. -/
theorem toNat_join (x y : U128) :
    ((x <<< 64) ||| (y &&& lowMask)).toNat = x.toNat % 2 ^ 64 * 2 ^ 64 + y.toNat % 2 ^ 64 := by
  have hshift : (x <<< 64).toNat = x.toNat % 2 ^ 64 * 2 ^ 64 := by
    rw [BitVec.toNat_shiftLeft, Nat.shiftLeft_eq]
    omega
  have hlow : y.toNat % 2 ^ 64 < 2 ^ 64 := Nat.mod_lt _ (by decide)
  rw [BitVec.toNat_or, hshift, toNat_low, Nat.mul_comm, Nat.two_pow_add_eq_or_of_lt hlow]

theorem high_lt (x : U128) : (x >>> 64).toNat < 2 ^ 64 := by
  have := x.isLt
  rw [toNat_high]
  omega

theorem low_lt (x : U128) : (x &&& lowMask).toNat < 2 ^ 64 := by
  rw [toNat_low]
  exact Nat.mod_lt _ (by decide)

/-- A product of halves fits a word. -/
theorem mul_halves {x y : U128} (hx : x.toNat < 2 ^ 64) (hy : y.toNat < 2 ^ 64) :
    ∃ z, mul x y = .ok z ∧ z.toNat = x.toNat * y.toNat := by
  apply mul_eq
  calc x.toNat * y.toNat < 2 ^ 64 * 2 ^ 64 := Nat.mul_lt_mul'' hx hy
    _ = 2 ^ 128 := by decide

theorem join_halves (x : U128) :
    (x >>> 64).toNat * 2 ^ 64 + (x &&& lowMask).toNat = x.toNat := by
  rw [toNat_high, toNat_low, Nat.mul_comm]
  exact Nat.div_add_mod _ _

end U128

/-! ## The product -/

namespace U256

/-- Every product and sum of `mul_u128` fits its word, and the limbs write the
product. -/
theorem mulU128_eq (a b : U128) :
    ∃ p, mulU128 a b = .ok p ∧ p.toNat = a.toNat * b.toNat := by
  have hah := U128.high_lt a
  have hal := U128.low_lt a
  have hbh := U128.high_lt b
  have hbl := U128.low_lt b
  obtain ⟨ll, hll, hllv⟩ := U128.mul_halves hal hbl
  obtain ⟨lh, hlh, hlhv⟩ := U128.mul_halves hal hbh
  obtain ⟨hl, hhl, hhlv⟩ := U128.mul_halves hah hbl
  obtain ⟨hh, hhh, hhhv⟩ := U128.mul_halves hah hbh
  -- The middle column stays below three halves.
  have hmiddle : Limbs.middle (2 ^ 64) ll.toNat lh.toNat hl.toNat ≤ 3 * (2 ^ 64 - 1) :=
    Limbs.middle_le ll.isLt
  rw [Limbs.middle] at hmiddle
  obtain ⟨carried, hcarried, hcarriedv⟩ := U128.add_eq (x := ll >>> 64) (y := lh &&& U128.lowMask)
    (by rw [U128.toNat_high, U128.toNat_low]; omega)
  rw [U128.toNat_high, U128.toNat_low] at hcarriedv
  obtain ⟨mid, hmid, hmidv⟩ := U128.add_eq (x := carried) (y := hl &&& U128.lowMask)
    (by rw [hcarriedv, U128.toNat_low]; omega)
  rw [hcarriedv, U128.toNat_low] at hmidv
  -- The upper limbs of a product fit two limbs, so does every partial sum of them.
  have hupper := Limbs.upper_lt hah hal hbh hbl
  have hproduct := Limbs.product_eq (B := 2 ^ 64) (a >>> 64).toNat (a &&& U128.lowMask).toNat
    (b >>> 64).toNat (b &&& U128.lowMask).toNat
  rw [← hllv, ← hlhv, ← hhlv, ← hhhv] at hupper hproduct
  simp only [Limbs.upper, Limbs.middle, ← hmidv, U128.join_halves] at hupper hproduct
  obtain ⟨hi₁, hhi₁, hhi₁v⟩ := U128.add_eq (x := hh) (y := lh >>> 64)
    (by rw [U128.toNat_high]; omega)
  rw [U128.toNat_high] at hhi₁v
  obtain ⟨hi₂, hhi₂, hhi₂v⟩ := U128.add_eq (x := hi₁) (y := hl >>> 64)
    (by rw [hhi₁v, U128.toNat_high]; omega)
  rw [hhi₁v, U128.toNat_high] at hhi₂v
  obtain ⟨hi, hhi, hhiv⟩ := U128.add_eq (x := hi₂) (y := mid >>> 64)
    (by rw [hhi₂v, U128.toNat_high]; omega)
  rw [hhi₂v, U128.toNat_high] at hhiv
  refine ⟨⟨hi, (mid <<< 64) ||| (ll &&& U128.lowMask)⟩, ?_, ?_⟩
  · simp only [mulU128, hll, hlh, hhl, hhh, hcarried, hmid, hhi₁, hhi₂, hhi, bind, Except.bind]
    rfl
  · rw [toNat, U128.toNat_join, hhiv, hproduct, show (2 ^ 128 : ℕ) = 2 ^ 64 * 2 ^ 64 by decide]

/-! ## The division -/

theorem lo_lt (n : U256) : n.lo.toNat < 2 ^ 128 := n.lo.isLt

theorem bit_eq (n : U256) (i : ℕ) : n.bit i = n.toNat.testBit i := by
  have hmask (x : U128) (j : ℕ) : decide ((x >>> j) &&& 1 = 1) = x.toNat.testBit j := by
    rw [Nat.testBit_eq_decide_div_mod_eq, decide_eq_decide, ← BitVec.toNat_inj, BitVec.toNat_and,
      BitVec.toNat_ushiftRight, Nat.shiftRight_eq_div_pow]
    exact iff_of_eq (congrArg (· = 1) (Nat.and_one_is_mod _))
  rw [toNat, Nat.mul_comm, Nat.testBit_two_pow_mul_add _ n.lo_lt]
  unfold bit
  by_cases hi : i < 128
  · rw [if_neg (Nat.not_le.mpr hi), if_pos hi]
    exact hmask n.lo i
  · rw [if_pos (Nat.not_lt.mp hi), if_neg hi]
    exact hmask n.hi (i - 128)

/-- The remainder with the next bit, without the bit that is shifted out. -/
theorem toNat_shiftIn (r : U128) (b : Bool) :
    ((r <<< 1) ||| (if b then 1 else 0)).toNat = (2 * r.toNat + b.toNat) % 2 ^ 128 := by
  have hshift : (r <<< 1).toNat = 2 * (r.toNat % 2 ^ 127) := by
    rw [BitVec.toNat_shiftLeft, Nat.shiftLeft_eq]
    omega
  have hbit : (if b then 1 else 0 : U128).toNat = b.toNat := by cases b <;> rfl
  have hlt : b.toNat < 2 ^ 1 := b.toNat_lt
  rw [BitVec.toNat_or, hshift, hbit, ← Nat.two_pow_add_eq_or_of_lt (i := 1) hlt]
  omega

theorem carry_iff (r : U128) : r >>> 127 = 1 ↔ 2 ^ 127 ≤ r.toNat := by
  have := r.isLt
  rw [← BitVec.toNat_inj, BitVec.toNat_ushiftRight, Nat.shiftRight_eq_div_pow]
  show r.toNat / 2 ^ 127 = 1 ↔ _
  omega

/-- The next bit of a quotient whose lower bits are still clear. -/
theorem toNat_setBit {q : U128} {k i : ℕ} (hi : i < 128) (hq : q.toNat = k * 2 ^ (i + 1)) :
    (q ||| ((1 : U128) <<< i)).toNat = (2 * k + 1) * 2 ^ i := by
  have hone : ((1 : U128) <<< i).toNat = 2 ^ i := by
    rw [BitVec.toNat_shiftLeft, Nat.shiftLeft_eq]
    show 1 * 2 ^ i % 2 ^ 128 = 2 ^ i
    rw [one_mul, Nat.mod_eq_of_lt (Nat.pow_lt_pow_right (by decide) hi)]
  have hlt : 2 ^ i < 2 ^ (i + 1) := Nat.pow_lt_pow_right (by decide) (Nat.lt_succ_self i)
  rw [BitVec.toNat_or, hone, hq, Nat.mul_comm, ← Nat.two_pow_add_eq_or_of_lt hlt]
  ring

/-- The loop holds the remainder and the quotient of the bits read so far, the
quotient at its place. -/
structure Divides (n d i : ℕ) (remainder quotient : U128) : Prop where
  remainder_eq : remainder.toNat = n / 2 ^ i % d
  quotient_eq : quotient.toNat = n / 2 ^ i / d * 2 ^ i

theorem fits_iff {n : U256} {d r q : U128} {i : ℕ} (hd : 0 < d.toNat)
    (h : Divides n.toNat d.toNat (i + 1) r q) :
    r >>> 127 = 1 ∨ d ≤ (r <<< 1) ||| (if n.bit i then 1 else 0) ↔
      d.toNat ≤ Limbs.partialRemainder n.toNat d.toNat i := by
  have hr : r.toNat < d.toNat := h.remainder_eq ▸ Nat.mod_lt _ hd
  have hdlt := d.isLt
  rw [carry_iff, BitVec.le_def, toNat_shiftIn, n.bit_eq, Limbs.partialRemainder, ← h.remainder_eq]
  have := (n.toNat.testBit i).toNat_le
  omega

theorem divides_taken {n : U256} {d r q : U128} {i : ℕ} (hd : 0 < d.toNat) (hi : i < 128)
    (h : Divides n.toNat d.toNat (i + 1) r q)
    (hfits : d.toNat ≤ Limbs.partialRemainder n.toNat d.toNat i) :
    Divides n.toNat d.toNat i (((r <<< 1) ||| (if n.bit i then 1 else 0)) - d)
      (q ||| ((1 : U128) <<< i)) := by
  have hstep := Limbs.step_of_le hd hfits
  have hlt := Limbs.partialRemainder_lt (n := n.toNat) (i := i) hd
  have hdlt := d.isLt
  constructor
  · rw [hstep.1, BitVec.toNat_sub, toNat_shiftIn, n.bit_eq, h.remainder_eq]
    rw [Limbs.partialRemainder] at hfits hlt ⊢
    omega
  · rw [hstep.2]
    exact toNat_setBit hi h.quotient_eq

theorem divides_kept {n : U256} {d r q : U128} {i : ℕ}
    (h : Divides n.toNat d.toNat (i + 1) r q)
    (hfits : Limbs.partialRemainder n.toNat d.toNat i < d.toNat) :
    Divides n.toNat d.toNat i ((r <<< 1) ||| (if n.bit i then 1 else 0)) q := by
  have hstep := Limbs.step_of_lt hfits
  constructor
  · rw [hstep.1, toNat_shiftIn, n.bit_eq, h.remainder_eq]
    exact Nat.mod_eq_of_lt (hfits.trans d.isLt)
  · rw [hstep.2, h.quotient_eq, pow_succ]
    ring

theorem divLoop_eq {n : U256} {d : U128} (hd : 0 < d.toNat) (i : ℕ) (r q : U128)
    (h : Divides n.toNat d.toNat i r q) :
    n.divLoop d i r q =
      if n.toNat / d.toNat < 2 ^ 128 then some (.ofNat 128 (n.toNat / d.toNat)) else none := by
  induction i generalizing r q with
  | zero =>
    have hq : q.toNat = n.toNat / d.toNat := by simpa using h.quotient_eq
    rw [divLoop, ← hq, if_pos q.isLt, BitVec.ofNat_toNat, BitVec.setWidth_eq]
  | succ i ih =>
    rw [divLoop]
    by_cases hfits : d.toNat ≤ Limbs.partialRemainder n.toNat d.toNat i
    · rw [if_pos ((fits_iff hd h).mpr hfits)]
      by_cases hi : 128 ≤ i
      · -- A bit of the quotient at 128 or above.
        have hpow : 2 ^ 128 ≤ 2 ^ i := Nat.pow_le_pow_right (by decide) hi
        have hlarge := hpow.trans (Limbs.pow_le_quotient hd hfits)
        rw [if_pos hi, if_neg (Nat.not_lt.mpr hlarge)]
      · rw [if_neg hi]
        exact ih _ _ (divides_taken hd (Nat.not_le.mp hi) h hfits)
    · rw [if_neg (mt (fits_iff hd h).mp hfits)]
      exact ih _ _ (divides_kept h (Nat.not_le.mp hfits))

/-- A shift that no bit is lost by multiplies. -/
theorem shiftLeft_eq {n : U256} {shift : ℕ} (hpos : 0 < shift) (hlt : shift < 128)
    (hfits : n.hi.toNat * 2 ^ shift < 2 ^ 128) :
    ∃ m, n.shiftLeft shift = .ok m ∧ m.toNat = n.toNat * 2 ^ shift := by
  have hshl (x : U128) : U128.shl x shift = .ok (x <<< shift) := by
    simp only [U128.shl, bind_eq_ok, require_eq_ok, exists_unit, pure_eq_ok, and_true]
    exact hlt
  have hshr (x : U128) : U128.shr x (128 - shift) = .ok (x >>> (128 - shift)) := by
    simp only [U128.shr, bind_eq_ok, require_eq_ok, exists_unit, pure_eq_ok, and_true]
    omega
  have hpow : 2 ^ (128 - shift) * 2 ^ shift = 2 ^ 128 := by
    rw [← pow_add, Nat.sub_add_cancel hlt.le]
  -- The bits that leave the lower limb are its quotient by what stays.
  have hcarry : n.lo.toNat * 2 ^ shift / 2 ^ 128 = n.lo.toNat / 2 ^ (128 - shift) := by
    rw [← hpow]
    exact Nat.mul_div_mul_right _ _ (by positivity)
  have hcarrylt : n.lo.toNat / 2 ^ (128 - shift) < 2 ^ shift := by
    apply Nat.div_lt_of_lt_mul
    rw [hpow]
    exact n.lo_lt
  refine ⟨⟨(n.hi <<< shift) ||| (n.lo >>> (128 - shift)), n.lo <<< shift⟩, ?_, ?_⟩
  · rw [shiftLeft, if_neg hpos.ne', if_neg (Nat.not_le.mpr hlt), hshl, hshr, hshl]
    rfl
  · have hhigh : ((n.hi <<< shift) ||| (n.lo >>> (128 - shift))).toNat =
        n.hi.toNat * 2 ^ shift + n.lo.toNat / 2 ^ (128 - shift) := by
      rw [BitVec.toNat_or, BitVec.toNat_shiftLeft, Nat.shiftLeft_eq, Nat.mod_eq_of_lt hfits,
        BitVec.toNat_ushiftRight, Nat.shiftRight_eq_div_pow, Nat.mul_comm,
        ← Nat.two_pow_add_eq_or_of_lt hcarrylt]
    have hlow : (n.lo <<< shift).toNat = n.lo.toNat * 2 ^ shift % 2 ^ 128 := by
      rw [BitVec.toNat_shiftLeft, Nat.shiftLeft_eq]
    rw [toNat, toNat, hhigh, hlow, ← hcarry, Nat.add_mul, Nat.add_assoc, Nat.div_add_mod',
      Nat.add_mul, Nat.mul_right_comm]

theorem toNat_lt (n : U256) : n.toNat < 2 ^ 256 := by
  have hhi := n.hi.isLt
  have hlo := n.lo.isLt
  rw [toNat]
  omega

theorem divU128_eq (n : U256) (d : U128) :
    n.divU128 d =
      if d ≠ 0 ∧ n.toNat / d.toNat < 2 ^ 128 then some (.ofNat 128 (n.toNat / d.toNat))
      else none := by
  rw [divU128]
  by_cases hd : d = 0
  · rw [if_pos hd, if_neg (fun h => h.1 hd)]
  · have hpos : 0 < d.toNat := Nat.pos_of_ne_zero fun h => hd (BitVec.eq_of_toNat_eq h)
    have hnone : n.toNat / 2 ^ 256 = 0 := Nat.div_eq_of_lt n.toNat_lt
    have hstart : Divides n.toNat d.toNat 256 0 0 := by
      constructor
      · rw [hnone, Nat.zero_mod]
        rfl
      · rw [hnone, Nat.zero_div, Nat.zero_mul]
        rfl
    rw [if_neg hd, divLoop_eq hpos 256 0 0 hstart]
    exact if_congr (and_iff_right hd).symm rfl rfl

end U256

/-! ## Multiply and divide -/

theorem mulDiv_eq (a b d : U128) :
    mulDiv a b d = .ok (
      if d ≠ 0 ∧ a.toNat * b.toNat / d.toNat < 2 ^ 128 then
        some (.ofNat 128 (a.toNat * b.toNat / d.toNat))
      else none) := by
  obtain ⟨p, hp, hpv⟩ := U256.mulU128_eq a b
  simp only [mulDiv, bind_eq_ok, pure_eq_ok]
  exact ⟨p, hp, by rw [p.divU128_eq, hpv]⟩

end Service
