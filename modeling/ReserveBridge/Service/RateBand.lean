-- SUMMARY: The movement of a route's rate between two windows in exact basis points, and the band that a movement exceeds.
import ReserveBridge.Service.BigMath
import ReserveBridge.Service.DepositBound
import ReserveBridge.Service.Smoothing
import Mathlib.Tactic.FieldSimp

/-!
# The rate band

`movement_bps` and `route_rate` of `service/src/bridge_rate/live.rs`. The movement
of a rate is a quotient of products of two prices. A reference without a value
counts as a movement that no band admits.
-/

namespace Service
open Guard

/-! ## The movement -/

namespace U256

/-- `sub`. -/
def sub (a b : U256) : Except Panic U256 := do
  let borrow : U128 := if a.lo < b.lo then 1 else 0
  let hi ← U128.sub a.hi b.hi
  let hi ← U128.sub hi borrow
  return ⟨hi, a.lo - b.lo⟩

/-- The larger less the smaller. -/
def distance (a b : U256) : Except Panic U256 := if b.Le a then a.sub b else b.sub a

end U256

/-- `u64::try_from`, with `u64::MAX` for what does not fit. -/
def saturate : Option U128 → U64
  | some v => if h : v.toNat < 2 ^ 64 then ⟨v.toNat, h⟩ else maxU64
  | none => maxU64

/-- The lower 128 bits of `n >> shift`. -/
def shiftedDown (n : U256) (shift : ℕ) : Except Panic U128 := do
  let high ← U128.shl n.hi (128 - shift)
  let low ← U128.shr n.lo shift
  return high ||| low

/-- `movement_bps`. Products of two `u64` never reach the shifted branch. -/
def movementBps (srcNow dstNow srcRef dstRef : U64) : Except Panic U64 := do
  let lhs ← U256.mulU128 srcNow.wide dstRef.wide
  let rhs ← U256.mulU128 srcRef.wide dstNow.wide
  let diff ← lhs.distance rhs
  if rhs = U256.zero then return maxU64
  else if diff.hi ≠ 0 ∨ rhs.hi ≠ 0 then
    let shift := 128 - min rhs.hi.clz.toNat diff.hi.clz.toNat
    let d ← shiftedDown diff shift
    let b ← shiftedDown rhs shift
    let bps ← mulDiv d 10000 (if b ≤ 1 then 1 else b)
    return saturate bps
  else
    let bps ← mulDiv diff.lo 10000 rhs.lo
    return saturate bps

/-! ## The band -/

/-- `rate_band_bps`, as the configuration reads it from `rate_band_pct`. -/
def rateBandBps (pct : U64) : Option U64 :=
  if 1 ≤ pct.val ∧ pct.val ≤ 10000 then some (.ofNat (2 ^ 64) (pct.val * 100)) else none

/-- `RouteRate`. -/
structure RouteRate where
  prices : RailPrices
  referenceSourcePrice : U64
  referenceDestinationPrice : U64
  movementBps : U64
  bandBps : U64
  bandExceeded : Bool
  deriving DecidableEq

/-- What keeps a route without a rate. -/
inductive RouteRateFailure
  | refused (refusal : RailRefusal)
  | panic (panic : Panic)
  deriving DecidableEq

/-- The newest `feed_at` of a rail. -/
def RailState.feedAt (rail : RailState) (now : ℤ) : ℤ := (rail.history.head?.map (·.feedAt)).getD now

/-- `route_rate`. -/
def routeRate (c : LiveRateConfig) (band : U64) (book : LiveBook) (route : Direction)
    (now : ℤ) : Except RouteRateFailure RouteRate := do
  let source := book route.sourceChain
  let destination := book route.destinationChain
  let (srcNow, srcRef) ← (LiveBook.railPrices c source route.sourceChain now).mapError .refused
  let (dstNow, dstRef) ←
    (LiveBook.railPrices c destination route.destinationChain now).mapError .refused
  let movement ← (movementBps srcNow dstNow srcRef dstRef).mapError .panic
  return {
    prices := ⟨srcNow, dstNow, source.feedAt now, destination.feedAt now⟩
    referenceSourcePrice := srcRef
    referenceDestinationPrice := dstRef
    movementBps := movement
    bandBps := band
    bandExceeded := band < movement }

/-! ## The exact movement -/

/-- The distance of the cross products of two rates. -/
def crossDistance (srcNow dstNow srcRef dstRef : U64) : ℕ :=
  ((srcNow.val * dstRef.val : ℤ) - srcRef.val * dstNow.val).natAbs

theorem U64.toNat_wide (x : U64) : x.wide.toNat = x.val := by
  rw [U64.wide, BitVec.toNat_ofNat]
  exact Nat.mod_eq_of_lt (x.isLt.trans (by decide))

namespace U256

theorem le_iff (a b : U256) : a.Le b ↔ a.toNat ≤ b.toNat := by
  have ha := a.lo_lt
  have hb := b.lo_lt
  simp only [Le, toNat, BitVec.lt_def, BitVec.le_def, ← BitVec.toNat_inj]
  omega

theorem eq_zero_iff (n : U256) : n = zero ↔ n.toNat = 0 := by
  cases n with
  | mk hi lo =>
    simp only [zero, toNat, mk.injEq, ← BitVec.toNat_inj, Nat.add_eq_zero_iff, Nat.mul_eq_zero]
    simp

/-- A number of one limb. -/
theorem limbs_of_lt {n : U256} (h : n.toNat < 2 ^ 128) : n.hi = 0 ∧ n.lo.toNat = n.toNat := by
  have hhi : n.hi.toNat = 0 := by
    rw [toNat] at h
    omega
  refine ⟨BitVec.eq_of_toNat_eq hhi, ?_⟩
  rw [toNat, hhi, Nat.zero_mul, Nat.zero_add]

theorem sub_eq {a b : U256} (h : b.toNat ≤ a.toNat) :
    ∃ z, a.sub b = .ok z ∧ z.toNat = a.toNat - b.toNat := by
  have ha := a.lo_lt
  have hb := b.lo_lt
  simp only [toNat] at h
  by_cases hborrow : a.lo < b.lo
  · have hlt := BitVec.lt_def.mp hborrow
    obtain ⟨x, hx, hxv⟩ := U128.sub_eq (x := a.hi) (y := b.hi) (by omega)
    obtain ⟨y, hy, hyv⟩ := U128.sub_eq (x := x) (y := 1) (by
      show 1 ≤ x.toNat
      omega)
    refine ⟨⟨y, a.lo - b.lo⟩, ?_, ?_⟩
    · simp only [sub, if_pos hborrow, hx, hy, bind, Except.bind]
      rfl
    · have hone : (1 : U128).toNat = 1 := rfl
      simp only [toNat, hyv, hxv, hone, BitVec.toNat_sub]
      omega
  · have hle : b.lo.toNat ≤ a.lo.toNat := Nat.not_lt.mp (mt BitVec.lt_def.mpr hborrow)
    obtain ⟨x, hx, hxv⟩ := U128.sub_eq (x := a.hi) (y := b.hi) (by omega)
    obtain ⟨y, hy, hyv⟩ := U128.sub_eq (x := x) (y := 0) (Nat.zero_le _)
    refine ⟨⟨y, a.lo - b.lo⟩, ?_, ?_⟩
    · simp only [sub, if_neg hborrow, hx, hy, bind, Except.bind]
      rfl
    · have hzero : (0 : U128).toNat = 0 := rfl
      simp only [toNat, hyv, hxv, hzero, BitVec.toNat_sub_of_le (BitVec.le_def.mpr hle)]
      omega

/-- The product of two `u64` has one limb. -/
theorem mulU128_wide (x y : U64) :
    ∃ p, mulU128 x.wide y.wide = .ok p ∧ p.toNat = x.val * y.val ∧ p.toNat < 2 ^ 128 := by
  obtain ⟨p, hp, hpv⟩ := mulU128_eq x.wide y.wide
  rw [U64.toNat_wide, U64.toNat_wide] at hpv
  refine ⟨p, hp, hpv, ?_⟩
  calc p.toNat = x.val * y.val := hpv
    _ < 2 ^ 64 * 2 ^ 64 := Nat.mul_lt_mul'' x.isLt y.isLt
    _ = 2 ^ 128 := by decide

end U256

theorem saturate_quotient (q : ℕ) :
    (saturate (if q < 2 ^ 128 then some (.ofNat 128 q) else none)).val = min q (2 ^ 64 - 1) := by
  by_cases hq : q < 2 ^ 128
  · have hv : (BitVec.ofNat 128 q).toNat = q := Nat.mod_eq_of_lt hq
    rw [if_pos hq, saturate]
    simp only [hv]
    split_ifs with h
    · exact (Nat.min_eq_left (Nat.le_pred_of_lt h)).symm
    · exact (Nat.min_eq_right (by omega)).symm
  · rw [if_neg hq]
    exact (Nat.min_eq_right (by omega)).symm

theorem crossDistance_of_le {srcNow dstNow srcRef dstRef : U64}
    (h : srcRef.val * dstNow.val ≤ srcNow.val * dstRef.val) :
    crossDistance srcNow dstNow srcRef dstRef =
      srcNow.val * dstRef.val - srcRef.val * dstNow.val := by
  rw [crossDistance]
  omega

theorem crossDistance_of_ge {srcNow dstNow srcRef dstRef : U64}
    (h : srcNow.val * dstRef.val ≤ srcRef.val * dstNow.val) :
    crossDistance srcNow dstNow srcRef dstRef =
      srcRef.val * dstNow.val - srcNow.val * dstRef.val := by
  rw [crossDistance]
  omega

theorem distance_eq {srcNow dstNow srcRef dstRef : U64} {lhs rhs : U256}
    (hlhs : lhs.toNat = srcNow.val * dstRef.val) (hrhs : rhs.toNat = srcRef.val * dstNow.val) :
    ∃ diff, lhs.distance rhs = .ok diff ∧
      diff.toNat = crossDistance srcNow dstNow srcRef dstRef := by
  by_cases hle : rhs.Le lhs
  · have hnat := (U256.le_iff rhs lhs).mp hle
    obtain ⟨diff, hdiff, hdiffv⟩ := U256.sub_eq hnat
    rw [hlhs, hrhs] at hnat hdiffv
    exact ⟨diff, by rw [U256.distance, if_pos hle, hdiff], by rw [hdiffv, crossDistance_of_le hnat]⟩
  · have hnat := Nat.le_of_not_le (mt (U256.le_iff rhs lhs).mpr hle)
    obtain ⟨diff, hdiff, hdiffv⟩ := U256.sub_eq hnat
    rw [hlhs, hrhs] at hnat hdiffv
    exact ⟨diff, by rw [U256.distance, if_neg hle, hdiff], by rw [hdiffv, crossDistance_of_ge hnat]⟩

theorem crossDistance_lt {srcNow dstNow srcRef dstRef : U64} {n : ℕ}
    (hnow : srcNow.val * dstRef.val < n) (href : srcRef.val * dstNow.val < n) :
    crossDistance srcNow dstNow srcRef dstRef < n := by
  rcases Nat.le_total (srcRef.val * dstNow.val) (srcNow.val * dstRef.val) with h | h
  · rw [crossDistance_of_le h]
    omega
  · rw [crossDistance_of_ge h]
    omega

theorem movementBps_eq (srcNow dstNow srcRef dstRef : U64) :
    ∃ m, movementBps srcNow dstNow srcRef dstRef = .ok m ∧
      m.val = if srcRef.val * dstNow.val = 0 then 2 ^ 64 - 1
        else min (crossDistance srcNow dstNow srcRef dstRef * 10000 / (srcRef.val * dstNow.val))
          (2 ^ 64 - 1) := by
  obtain ⟨lhs, hlhs, hlhsv, hlhslt⟩ := U256.mulU128_wide srcNow dstRef
  obtain ⟨rhs, hrhs, hrhsv, hrhslt⟩ := U256.mulU128_wide srcRef dstNow
  obtain ⟨diff, hdiff, hdiffv⟩ := distance_eq hlhsv hrhsv
  have hdifflt : diff.toNat < 2 ^ 128 := by
    rw [hdiffv]
    exact crossDistance_lt (hlhsv ▸ hlhslt) (hrhsv ▸ hrhslt)
  obtain ⟨hrhshi, hrhslo⟩ := U256.limbs_of_lt hrhslt
  obtain ⟨hdiffhi, hdifflo⟩ := U256.limbs_of_lt hdifflt
  simp only [movementBps, hlhs, hrhs, hdiff, bind, Except.bind]
  by_cases hzero : rhs = U256.zero
  · have hbase : srcRef.val * dstNow.val = 0 := hrhsv ▸ (U256.eq_zero_iff rhs).mp hzero
    rw [if_pos hzero, if_pos hbase]
    exact ⟨maxU64, rfl, rfl⟩
  · have hbase : srcRef.val * dstNow.val ≠ 0 := hrhsv ▸ mt (U256.eq_zero_iff rhs).mpr hzero
    have hlow : rhs.lo ≠ 0 := fun h => by
      rw [← hrhsv, ← hrhslo, h] at hbase
      exact hbase rfl
    have htenthousand : (10000 : U128).toNat = 10000 := rfl
    rw [if_neg hzero, if_neg hbase, if_neg (not_or.mpr ⟨not_not.mpr hdiffhi, not_not.mpr hrhshi⟩),
      mulDiv_eq, htenthousand, hdifflo, hdiffv, hrhslo, hrhsv]
    simp only [ne_eq, hlow, not_false_iff, true_and]
    exact ⟨_, rfl, saturate_quotient _⟩

/-! ## The verdict of the band -/

/-- The movement is at least a number of basis points, without a division. -/
def MovedBy (bps : ℕ) (srcNow dstNow srcRef dstRef : U64) : Prop :=
  bps * (srcRef.val * dstNow.val) ≤ crossDistance srcNow dstNow srcRef dstRef * 10000

theorem lt_movement_iff {srcNow dstNow srcRef dstRef m : U64} {band : ℕ}
    (hband : band < 2 ^ 64 - 1) (hm : movementBps srcNow dstNow srcRef dstRef = .ok m) :
    band < m.val ↔ MovedBy (band + 1) srcNow dstNow srcRef dstRef := by
  obtain ⟨m', hm', hval⟩ := movementBps_eq srcNow dstNow srcRef dstRef
  obtain rfl : m' = m := Except.ok.inj (hm'.symm.trans hm)
  rw [hval, MovedBy]
  split_ifs with hbase
  · rw [hbase, Nat.mul_zero]
    exact iff_of_true hband (Nat.zero_le _)
  · rw [lt_min_iff, and_iff_left hband, ← Nat.succ_le_iff,
      Nat.le_div_iff_mul_le (Nat.pos_of_ne_zero hbase)]

/-- A band that the configuration admits is below what a movement saturates to. -/
theorem rateBandBps_lt {pct band : U64} (h : rateBandBps pct = some band) :
    band.val < 2 ^ 64 - 1 := by
  rw [rateBandBps, Option.ite_none_right_eq_some] at h
  obtain ⟨⟨-, hle⟩, hband⟩ := h
  obtain rfl := Option.some.inj hband
  rw [Fin.val_ofNat, Nat.mod_eq_of_lt (by omega)]
  omega

/-- Where both rates are defined, the movement is the relative one. -/
theorem movedBy_iff_relative {bps : ℕ} {srcNow dstNow srcRef dstRef : U64}
    (hdstNow : dstNow ≠ 0) (hsrcRef : srcRef ≠ 0) (hdstRef : dstRef ≠ 0) :
    MovedBy bps srcNow dstNow srcRef dstRef ↔
      (bps : ℚ) / 10000 ≤
        |(srcNow.val : ℚ) / dstNow.val - srcRef.val / dstRef.val| / (srcRef.val / dstRef.val) := by
  have hpos {x : U64} (hx : x ≠ 0) : (0 : ℚ) < x.val :=
    Nat.cast_pos.mpr (Nat.pos_of_ne_zero fun h => hx (Fin.ext h))
  have hdstNow' := hpos hdstNow
  have hsrcRef' := hpos hsrcRef
  have hdstRef' := hpos hdstRef
  have hcross : (srcNow.val : ℚ) / dstNow.val - srcRef.val / dstRef.val =
      (srcNow.val * dstRef.val - srcRef.val * dstNow.val) / (dstNow.val * dstRef.val) := by
    field_simp
  have hdistance : (crossDistance srcNow dstNow srcRef dstRef : ℚ) =
      |(srcNow.val : ℚ) * dstRef.val - srcRef.val * dstNow.val| := by
    rw [crossDistance, Nat.cast_natAbs]
    push_cast
    rfl
  calc MovedBy bps srcNow dstNow srcRef dstRef
      ↔ (bps : ℚ) * (srcRef.val * dstNow.val) ≤
          crossDistance srcNow dstNow srcRef dstRef * 10000 := by
        rw [MovedBy]
        exact_mod_cast Iff.rfl
    _ ↔ (bps : ℚ) / 10000 ≤
          crossDistance srcNow dstNow srcRef dstRef / (srcRef.val * dstNow.val) := by
        rw [div_le_div_iff₀ (by norm_num) (mul_pos hsrcRef' hdstNow')]
    _ ↔ _ := by
        rw [hdistance, hcross, abs_div, abs_of_pos (mul_pos hdstNow' hdstRef'), div_div]
        field_simp

theorem routeRate_eq_ok {c : LiveRateConfig} {band : U64} {book : LiveBook}
    {route : Direction} {now : ℤ} {r : RouteRate} (h : routeRate c band book route now = .ok r) :
    movementBps r.prices.sourcePrice r.prices.destinationPrice r.referenceSourcePrice
        r.referenceDestinationPrice = .ok r.movementBps ∧
      (r.bandExceeded = true ↔ band.val < r.movementBps.val) := by
  simp only [routeRate, bind_eq_ok, mapError_eq_ok, pure_eq_ok] at h
  obtain ⟨source, hsource, destination, hdestination, movement, hmovement, rfl⟩ := h
  exact ⟨hmovement, decide_eq_true_iff⟩

/-- Only a rail without a price keeps a route without a rate. -/
theorem routeRate_ne_panic (c : LiveRateConfig) (band : U64) (book : LiveBook)
    (route : Direction) (now : ℤ) (p : Panic) :
    routeRate c band book route now ≠ .error (.panic p) := by
  intro h
  cases hsource : LiveBook.railPrices c (book route.sourceChain) route.sourceChain now with
  | error refusal => simp [routeRate, hsource, Except.mapError, bind, Except.bind] at h
  | ok source =>
    cases hdestination : LiveBook.railPrices c (book route.destinationChain)
        route.destinationChain now with
    | error refusal =>
      simp [routeRate, hsource, hdestination, Except.mapError, bind, Except.bind] at h
    | ok destination =>
      obtain ⟨m, hm, -⟩ := movementBps_eq source.1 destination.1 source.2 destination.2
      simp [routeRate, hsource, hdestination, hm, Except.mapError, bind, Except.bind, pure,
        Except.pure] at h

/-- The wide operations are exact on every operand, and a band below the largest
`u64` reports the exact movement of the rate. -/
theorem wide_arithmetic_exact :
    (∀ a b : U128, ∃ p, U256.mulU128 a b = .ok p ∧ p.toNat = a.toNat * b.toNat) ∧
    (∀ a b d : U128, mulDiv a b d = .ok (
      if d ≠ 0 ∧ a.toNat * b.toNat / d.toNat < 2 ^ 128 then
        some (.ofNat 128 (a.toNat * b.toNat / d.toNat))
      else none)) ∧
    (∀ srcNow dstNow srcRef dstRef : U64, ∃ m, movementBps srcNow dstNow srcRef dstRef = .ok m ∧
      m.val = if srcRef.val * dstNow.val = 0 then 2 ^ 64 - 1
        else min (crossDistance srcNow dstNow srcRef dstRef * 10000 / (srcRef.val * dstNow.val))
          (2 ^ 64 - 1)) ∧
    (∀ (c : LiveRateConfig) (band : U64) (book : LiveBook) (route : Direction) (now : ℤ)
      (r : RouteRate), band.val < 2 ^ 64 - 1 → routeRate c band book route now = .ok r →
      (r.bandExceeded = true ↔
        MovedBy (band.val + 1) r.prices.sourcePrice r.prices.destinationPrice
          r.referenceSourcePrice r.referenceDestinationPrice) ∧
      (r.prices.destinationPrice ≠ 0 → r.referenceSourcePrice ≠ 0 →
        r.referenceDestinationPrice ≠ 0 →
        (r.bandExceeded = true ↔
          ((band.val + 1 : ℕ) : ℚ) / 10000 ≤
            |(r.prices.sourcePrice.val : ℚ) / r.prices.destinationPrice.val -
                r.referenceSourcePrice.val / r.referenceDestinationPrice.val| /
              (r.referenceSourcePrice.val / r.referenceDestinationPrice.val)))) := by
  refine ⟨U256.mulU128_eq, mulDiv_eq, movementBps_eq, fun c band book route now r hband hr => ?_⟩
  obtain ⟨hmovement, hexceeded⟩ := routeRate_eq_ok hr
  have hmoved := hexceeded.trans (lt_movement_iff hband hmovement)
  refine ⟨hmoved, fun hdstNow hsrcRef hdstRef => ?_⟩
  exact hmoved.trans (movedBy_iff_relative hdstNow hsrcRef hdstRef)

/-- The production band. -/
def sampleBand : U64 := 2500

/-- A rail that holds one price over the window before, and another over the
current one. -/
def sampleRail (reference current : U64) : RailState :=
  ⟨[⟨115, 116, current⟩, ⟨60, 61, current⟩, ⟨0, 1, reference⟩], none⟩

def sampleBook : LiveBook := fun chain =>
  if chain = .solana then sampleRail 1000 1251 else sampleRail 1000 1000

theorem wide_arithmetic_exact_sample :
    routeRate sampleRateConfig sampleBand sampleBook .solToGlc 120 =
        .ok ⟨⟨1251, 1000, 115, 115⟩, 1000, 1000, 2510, 2500, true⟩ ∧
      MovedBy 2501 1251 1000 1000 1000 := by
  have hok : routeRate sampleRateConfig sampleBand sampleBook .solToGlc 120 =
      .ok ⟨⟨1251, 1000, 115, 115⟩, 1000, 1000, 2510, 2500, true⟩ := by
    decide +kernel
  have hband : rateBandBps 25 = some sampleBand := by decide
  exact ⟨hok, (wide_arithmetic_exact.2.2.2 _ _ _ _ _ _ (rateBandBps_lt hband) hok).1.mp rfl⟩

end Service
