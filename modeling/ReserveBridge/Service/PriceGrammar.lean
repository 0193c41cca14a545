-- SUMMARY: The prices of the texts: the loop over the digits, the move of the point, and the exact set of texts that have a price or whose point overflows.
import ReserveBridge.Service.PriceText

/-!
# The grammar of prices

What `parse_price_e12` of `service/src/bridge_rate/decimal.rs` makes of the digits
of a numeral. Its loop never loses a digit, and its move of the point is the floor
of the exact value. Only a point more than `2 ^ 31` digits away is out of its
reach.
-/

namespace Service
open Guard

namespace PriceText

variable {build : Build}

/-! ## The digits -/

theorem i32_eq {n : ℤ} (hlow : -2 ^ 31 ≤ n) (hhigh : n < 2 ^ 31) : i32 build n = .ok n := by
  cases build with
  | release =>
    rw [i32, Int.emod_eq_of_lt (by omega) (by omega)]
    congr 1
    omega
  | checked =>
    simp only [i32, bind_eq_ok, require_eq_ok, exists_unit, pure_eq_ok, and_true]
    exact ⟨hlow, hhigh⟩

/-- The state of the loop after digits. -/
def summary (digits : List (Bool × ℕ)) : Accumulated :=
  ⟨Radix.value 10 (digits.map (·.2)), (Radix.significant (digits.map (·.2))).length,
    -(digits.countP (·.1))⟩

theorem moveScale_eq {isFrac : Bool} {n : ℕ} (h : n + isFrac.toNat ≤ 2 ^ 31) :
    moveScale build isFrac (-n) = .ok (-(n + isFrac.toNat : ℕ)) := by
  cases isFrac with
  | false => rfl
  | true =>
    rw [Bool.toNat_true] at h ⊢
    have hnext : -(n : ℤ) - 1 = -(n + 1 : ℕ) := by omega
    simp only [moveScale, if_true, hnext]
    exact i32_eq (by omega) (by omega)

theorem u128_eq {n : ℕ} (h : n < 2 ^ 128) : u128 build n = .ok n := by
  cases build with
  | release => rw [u128, Nat.mod_eq_of_lt h]
  | checked =>
    simp only [u128, bind_eq_ok, require_eq_ok, exists_unit, pure_eq_ok, and_true]
    exact h

theorem countP_append_singleton (pre : List (Bool × ℕ)) (isFrac : Bool) (d : ℕ) :
    (pre ++ [(isFrac, d)]).countP (·.1) = pre.countP (·.1) + isFrac.toNat := by
  rw [List.countP_append]
  cases isFrac <;> rfl

theorem summary_append (pre : List (Bool × ℕ)) (isFrac : Bool) (d : ℕ) :
    summary (pre ++ [(isFrac, d)]) =
      ⟨Radix.value 10 (pre.map (·.2)) * 10 + d,
        (if Radix.significant (pre.map (·.2)) = [] ∧ d = 0 then []
          else Radix.significant (pre.map (·.2)) ++ [d]).length,
        -(pre.countP (·.1) + isFrac.toNat : ℕ)⟩ := by
  rw [summary, countP_append_singleton, List.map_append, List.map_singleton,
    Radix.value_append_singleton, Radix.significant_append_singleton]

/-- One digit prolongs the summary, or is the 39th that is significant. -/
theorem accumulate_summary {text : List Char} {pre : List (Bool × ℕ)} {digit : Bool × ℕ}
    (hdigits : ∀ d ∈ pre ++ [digit], d.2 < 10)
    (hscale : (pre ++ [digit]).countP (·.1) ≤ 2 ^ 31) :
    accumulate build text (summary pre) digit =
      if (Radix.significant ((pre ++ [digit]).map (·.2))).length ≤ 38 then
        .ok (summary (pre ++ [digit]))
      else .error (.refused (.overflow text)) := by
  obtain ⟨isFrac, d⟩ := digit
  have hd : d < 10 := hdigits (isFrac, d) (by simp)
  have hpre : ∀ x ∈ pre.map (·.2), x < 10 := by
    intro x hx
    obtain ⟨y, hy, rfl⟩ := List.mem_map.mp hx
    exact hdigits y (List.mem_append_left _ hy)
  have hcount := countP_append_singleton pre isFrac d
  have hmove := @moveScale_eq build _ _ (hcount ▸ hscale)
  have hzero : Radix.value 10 (pre.map (·.2)) = 0 ↔ Radix.significant (pre.map (·.2)) = [] :=
    Radix.value_eq_zero_iff (by decide)
  rw [List.map_append, List.map_singleton, summary_append, Radix.significant_append_singleton]
  by_cases hskip : Radix.significant (pre.map (·.2)) = [] ∧ d = 0
  · have hacc : (summary pre).acc = 0 := hzero.mpr hskip.1
    rw [if_pos hskip, List.length_nil, if_pos (Nat.zero_le 38), accumulate, if_pos ⟨hacc, hskip.2⟩]
    simp only [bind_eq_ok, pure_eq_ok]
    refine ⟨_, hmove, ?_⟩
    simp only [summary, show Radix.value 10 (pre.map (·.2)) = 0 from hacc, hskip.1, hskip.2,
      List.length_nil, Nat.zero_mul]
  · have hkept : ¬ ((summary pre).acc = 0 ∧ d = 0) := fun h => hskip ⟨hzero.mp h.1, h.2⟩
    rw [if_neg hskip, List.length_append, List.length_singleton, accumulate, if_neg hkept]
    by_cases hle : (Radix.significant (pre.map (·.2))).length + 1 ≤ 38
    · have hlt : Radix.value 10 (pre.map (·.2)) < 10 ^ 37 :=
        (Radix.value_lt (by decide) hpre).trans_le
          (Nat.pow_le_pow_right (by decide) (Nat.le_of_succ_le_succ hle))
      rw [if_pos hle]
      simp only [bind_eq_ok, require_eq_ok, exists_unit, pure_eq_ok]
      refine ⟨hle, _, u128_eq ?_, _, u128_eq ?_, _, hmove, rfl⟩
      · show Radix.value 10 (pre.map (·.2)) * 10 < 2 ^ 128
        omega
      · show Radix.value 10 (pre.map (·.2)) * 10 + d < 2 ^ 128
        omega
    · rw [if_neg hle, bind_eq_error]
      exact .inl (require_eq_error.mpr ⟨hle, rfl⟩)

/-- The loop reads all digits, or stops at the 39th that is significant. -/
theorem foldlM_accumulate (text : List Char) (pre rest : List (Bool × ℕ))
    (hdigits : ∀ d ∈ pre ++ rest, d.2 < 10)
    (hsignificant : (Radix.significant (pre.map (·.2))).length ≤ 38)
    (hscale : (pre ++ rest).countP (·.1) ≤ 2 ^ 31) :
    rest.foldlM (accumulate build text) (summary pre) =
      if (Radix.significant ((pre ++ rest).map (·.2))).length ≤ 38 then .ok (summary (pre ++ rest))
      else .error (.refused (.overflow text)) := by
  induction rest generalizing pre with
  | nil =>
    rw [List.append_nil, if_pos hsignificant]
    rfl
  | cons digit rest ih =>
    have happend : pre ++ digit :: rest = (pre ++ [digit]) ++ rest := by simp
    rw [happend] at hdigits hscale ⊢
    have hdigits' : ∀ d ∈ pre ++ [digit], d.2 < 10 := fun d hd =>
      hdigits d (List.mem_append_left _ hd)
    have hscale' : (pre ++ [digit]).countP (·.1) ≤ 2 ^ 31 := by
      rw [List.countP_append] at hscale
      exact (Nat.le_add_right _ _).trans hscale
    rw [List.foldlM_cons, accumulate_summary hdigits' hscale']
    by_cases hle : (Radix.significant ((pre ++ [digit]).map (·.2))).length ≤ 38
    · rw [if_pos hle]
      exact ih (pre ++ [digit]) hdigits hle hscale
    · -- The digits that follow do not shorten the significant ones.
      have hmono := Radix.length_significant_le_append ((pre ++ [digit]).map (·.2))
        (rest.map (·.2))
      rw [← List.map_append] at hmono
      rw [if_neg hle, if_neg fun h => hle (hmono.trans h)]
      rfl

/-! ## The price -/

theorem i32_checked_eq_panic {n : ℤ} (h : n < -2 ^ 31) :
    i32 .checked n = .error (.panic .overflow) := by
  rw [i32, bind_eq_error]
  exact .inl (require_eq_error.mpr ⟨fun hle => absurd h (not_lt.mpr hle.1), rfl⟩)

/-- A sum below the range wraps to its end. -/
theorem i32_release_eq {n : ℤ} (hlow : -2 ^ 32 ≤ n) (hhigh : n < -2 ^ 31) :
    i32 .release n = .ok (n + 2 ^ 32) := by
  have hwrapped : (n + 2 ^ 31) % 2 ^ 32 = n + 2 ^ 31 + 2 ^ 32 := by omega
  rw [i32, hwrapped]
  congr 1
  omega

/-- Moving the point floors the exact value. -/
theorem scaleBy_eq {text : List Char} {acc : ℕ} {shift : ℤ} (hpos : 0 < acc) (hacc : acc < 10 ^ 38)
    (hlow : -2 ^ 31 < shift) :
    scaleBy build text acc shift =
      if ⌊(acc : ℚ) * 10 ^ shift⌋₊ < 2 ^ 128 then .ok ⌊(acc : ℚ) * 10 ^ shift⌋₊
      else .error (.refused (.overflow text)) := by
  have hten : ((10 : ℕ) : ℚ) = 10 := by norm_num
  rw [scaleBy]
  by_cases hnonneg : 0 ≤ shift
  · have hfloor := Radix.floor_mul_zpow_of_nonneg (K := ℚ) (b := 10) acc hnonneg
    rw [hten] at hfloor
    rw [if_pos hnonneg, hfloor]
    by_cases hle : shift ≤ 38
    · have hpower : 10 ^ shift.toNat ≤ 10 ^ 38 := Nat.pow_le_pow_right (by decide) (by omega)
      rw [require, if_pos hle, u128_eq (hpower.trans_lt (by decide))]
      split_ifs with hlt
      · simp only [bind_eq_ok, require_eq_ok, exists_unit, pure_eq_ok]
        exact ⟨trivial, _, rfl, hlt, rfl⟩
      · rw [bind_eq_error]
        refine .inr ⟨(), rfl, ?_⟩
        rw [bind_eq_error]
        refine .inr ⟨_, rfl, ?_⟩
        rw [bind_eq_error]
        exact .inl (require_eq_error.mpr ⟨hlt, rfl⟩)
    · -- Ten to the 39th does not fit a `u128`.
      have hpower : 10 ^ 39 ≤ 10 ^ shift.toNat := Nat.pow_le_pow_right (by decide) (by omega)
      have hlarge : ¬ acc * 10 ^ shift.toNat < 2 ^ 128 := by
        have hmul := Nat.mul_le_mul hpos hpower
        omega
      rw [if_neg hlarge, bind_eq_error]
      exact .inl (require_eq_error.mpr ⟨hle, rfl⟩)
  · have hfloor := Radix.floor_mul_zpow_of_nonpos (K := ℚ) (b := 10) acc (not_le.mp hnonneg).le
    rw [hten] at hfloor
    have hfits : acc / 10 ^ (-shift).toNat < 2 ^ 128 :=
      (Nat.div_le_self _ _).trans_lt (hacc.trans (by decide))
    have hdropped : -shift % 2 ^ 32 = -shift := Int.emod_eq_of_lt (by omega) (by omega)
    rw [if_neg hnonneg, hfloor, if_pos hfits, i32_eq (by omega) (by omega)]
    simp only [bind_eq_ok]
    refine ⟨_, rfl, ?_⟩
    rw [hdropped]
    by_cases hdrop : 38 < -shift
    · have hpower : 10 ^ 38 ≤ 10 ^ (-shift).toNat := Nat.pow_le_pow_right (by decide) (by omega)
      rw [if_pos hdrop, Nat.div_eq_of_lt (hacc.trans_le hpower)]
      rfl
    · have hpower : 10 ^ (-shift).toNat ≤ 10 ^ 38 := Nat.pow_le_pow_right (by decide) (by omega)
      rw [if_neg hdrop, u128_eq (hpower.trans_lt (by decide))]
      rfl

namespace Numeral

theorem digits_lt (n : Numeral) : ∀ d ∈ n.digits, d < 10 := by
  apply map_digitOf_lt
  intro c hc
  rcases List.mem_append.mp hc with hc | hc
  · exact n.integer_isDigit c hc
  · cases hf : n.fraction with
    | none =>
      rw [hf] at hc
      exact absurd hc List.not_mem_nil
    | some f =>
      rw [hf] at hc
      exact n.fraction_isDigit f hf c hc

theorem map_parts_digits (n : Numeral) : n.parts.digits.map (·.2) = n.digits := by
  simp [Parts.digits, Numeral.parts, Numeral.digits, Function.comp_def]

theorem countP_parts_digits (n : Numeral) :
    n.parts.digits.countP (·.1) = (n.fraction.getD []).length := by
  simp [Parts.digits, Numeral.parts, List.countP_append, List.countP_map, Function.comp_def]

/-- The exponent has four digits. -/
theorem exponent_bounds (n : Numeral) :
    -9999 ≤ n.exponent.elim 0 Exponent.value ∧ n.exponent.elim 0 Exponent.value ≤ 9999 := by
  cases n.exponent with
  | none => exact ⟨by decide, by decide⟩
  | some e =>
    have hlt := e.magnitude_lt
    rw [Option.elim_some, Exponent.value]
    split_ifs <;> omega

end Numeral

theorem Numeral.price_eq (n : Numeral) :
    n.price = ⌊(Radix.value 10 n.digits : ℚ) * 10 ^ (n.power + 12)⌋₊ := by
  have hten : (10 : ℚ) ≠ 0 := by norm_num
  rw [Numeral.price, Numeral.value, mul_assoc, zpow_add₀ hten]
  rfl

/-- What becomes of digits whose point is out of reach. The release build moves it
to the other end of the range, or back. -/
def outOfReach (build : Build) (text : List Char) (power : ℤ) : Except PriceFailure U64 :=
  match build with
  | .release =>
    if power + 12 < -2 ^ 31 then .error (.refused (.overflow text))
    else .error (.refused (.zero text))
  | .checked => .error (.panic .overflow)

theorem outOfReach_ne_ok {text : List Char} {power : ℤ} {p : U64} :
    outOfReach build text power ≠ .ok p := by
  intro h
  cases build with
  | release =>
    unfold outOfReach at h
    split_ifs at h
  | checked => cases h

/-- The lowest position drops all digits, although its negation wraps. -/
theorem scaleBy_release_far {text : List Char} {acc : ℕ} {shift : ℤ} (hlow : -2 ^ 31 ≤ shift)
    (hhigh : shift < -38) : scaleBy .release text acc shift = .ok 0 := by
  have hdropped : ((-shift + 2 ^ 31) % 2 ^ 32 - 2 ^ 31) % 2 ^ 32 = -shift := by omega
  rw [scaleBy, if_neg (by omega), i32]
  simp only [bind, Except.bind]
  rw [hdropped, if_pos (by omega)]
  rfl

theorem place_release_far {text : List Char} {s : Accumulated} {exponent : ℤ} (hpos : 0 < s.acc)
    (hlow : -2 ^ 31 - 2 ^ 30 ≤ s.scale + exponent) (hfar : s.scale + exponent < -2 ^ 31) :
    place .release text s exponent = outOfReach .release text (s.scale + exponent) := by
  rw [place, require, if_pos hpos.ne', i32_release_eq (by omega) hfar]
  simp only [bind, Except.bind, outOfReach]
  by_cases hback : s.scale + exponent + 12 < -2 ^ 31
  · -- the point is at the far end: a shift to the left
    rw [if_pos hback, i32_eq (by omega) (by omega)]
    simp only [scaleBy, if_pos (show 0 ≤ s.scale + exponent + 2 ^ 32 + 12 by omega), require,
      if_neg (show ¬ s.scale + exponent + 2 ^ 32 + 12 ≤ 38 by omega), bind, Except.bind]
  · -- the second sum wraps too, and the point is where it belongs
    have hreturned : i32 .release (s.scale + exponent + 2 ^ 32 + 12) =
        .ok (s.scale + exponent + 12) := by
      have hwrapped : (s.scale + exponent + 2 ^ 32 + 12 + 2 ^ 31) % 2 ^ 32 =
          s.scale + exponent + 12 + 2 ^ 31 := by omega
      rw [i32, hwrapped]
      congr 1
      omega
    rw [if_neg hback, hreturned]
    simp only []
    rw [scaleBy_release_far (by omega) (by omega)]
    rfl

/-- The price is the floor of the value, unless the point is too far away. -/
theorem place_eq {text : List Char} {s : Accumulated} {exponent : ℤ} (hpos : 0 < s.acc)
    (hacc : s.acc < 10 ^ 38) (hlow : -2 ^ 31 - 2 ^ 30 ≤ s.scale + exponent)
    (hhigh : s.scale + exponent ≤ 9999) :
    place build text s exponent =
      if s.scale + exponent < -2 ^ 31 then outOfReach build text (s.scale + exponent)
      else if ⌊(s.acc : ℚ) * 10 ^ (s.scale + exponent + 12)⌋₊ = 0 then
        .error (.refused (.zero text))
      else if h : ⌊(s.acc : ℚ) * 10 ^ (s.scale + exponent + 12)⌋₊ < 2 ^ 64 then .ok ⟨_, h⟩
      else .error (.refused (.overflow text)) := by
  by_cases hfar : s.scale + exponent < -2 ^ 31
  · rw [if_pos hfar]
    cases build with
    | release => exact place_release_far hpos hlow hfar
    | checked =>
      rw [place, require, if_pos hpos.ne', i32_checked_eq_panic hfar]
      rfl
  · rw [place, require, if_pos hpos.ne', if_neg hfar, i32_eq (not_lt.mp hfar) (by omega)]
    simp only [bind, Except.bind]
    rw [i32_eq (by omega) (by omega)]
    simp only []
    rw [scaleBy_eq hpos hacc (by omega)]
    by_cases hzero : ⌊(s.acc : ℚ) * 10 ^ (s.scale + exponent + 12)⌋₊ = 0
    · rw [if_pos hzero, if_pos (hzero ▸ by decide)]
      simp only [require, ne_eq, hzero, not_true_eq_false, if_false]
    · rw [if_neg hzero]
      by_cases hfits : ⌊(s.acc : ℚ) * 10 ^ (s.scale + exponent + 12)⌋₊ < 2 ^ 128
      · rw [if_pos hfits]
        simp only [require, ne_eq, hzero, not_false_iff, if_true]
        rfl
      · have hlarge : ¬ ⌊(s.acc : ℚ) * 10 ^ (s.scale + exponent + 12)⌋₊ < 2 ^ 64 := fun h =>
          hfits (h.trans (by decide))
        rw [if_neg hfits, dif_neg hlarge]

/-- What the second half makes of a numeral. -/
theorem priceOf_numeral (text : List Char) (n : Numeral)
    (hlength : (n.fraction.getD []).length ≤ 2 ^ 31) :
    priceOf build text n.parts =
      if 38 < n.significant then .error (.refused (.overflow text))
      else if n.significant = 0 then .error (.refused (.zero text))
      else if n.power < -2 ^ 31 then outOfReach build text n.power
      else if n.price = 0 then .error (.refused (.zero text))
      else if h : n.price < 2 ^ 64 then .ok ⟨n.price, h⟩
      else .error (.refused (.overflow text)) := by
  have hdigits : ∀ d ∈ [] ++ n.parts.digits, d.2 < 10 := fun d hd =>
    n.digits_lt d.2 (n.map_parts_digits ▸ List.mem_map_of_mem hd)
  have hloop := @foldlM_accumulate build text [] n.parts.digits hdigits (Nat.zero_le _)
    (by rwa [List.nil_append, n.countP_parts_digits])
  have hsummary : summary n.parts.digits =
      ⟨Radix.value 10 n.digits, n.significant, -(n.fraction.getD []).length⟩ := by
    rw [summary, n.map_parts_digits, n.countP_parts_digits]
    rfl
  rw [List.nil_append, n.map_parts_digits, hsummary, ← Numeral.significant] at hloop
  have hzero : Radix.value 10 n.digits = 0 ↔ n.significant = 0 := by
    rw [Radix.value_eq_zero_iff (by decide), Numeral.significant, List.length_eq_zero_iff]
  have hpower : -((n.fraction.getD []).length : ℤ) + n.parts.exponent = n.power := by
    rw [Numeral.power, Numeral.parts]
    ring
  rw [priceOf, show (⟨0, 0, 0⟩ : Accumulated) = summary [] from rfl, hloop]
  by_cases hsignificant : 38 < n.significant
  · rw [if_pos hsignificant, if_neg (Nat.not_le.mpr hsignificant)]
    rfl
  · rw [if_neg hsignificant, if_pos (Nat.not_lt.mp hsignificant)]
    by_cases hnone : n.significant = 0
    · rw [if_pos hnone]
      show place build text _ _ = _
      rw [place, require, if_neg (not_not.mpr (hzero.mpr hnone))]
      rfl
    · have hpos : 0 < Radix.value 10 n.digits := Nat.pos_of_ne_zero (mt hzero.mp hnone)
      have hlt : Radix.value 10 n.digits < 10 ^ 38 :=
        (Radix.value_lt (by decide) n.digits_lt).trans_le
          (Nat.pow_le_pow_right (by decide) (Nat.not_lt.mp hsignificant))
      have hexponent : -9999 ≤ n.parts.exponent ∧ n.parts.exponent ≤ 9999 := n.exponent_bounds
      have hlow : -2 ^ 31 - 2 ^ 30 ≤
          -((n.fraction.getD []).length : ℤ) + n.parts.exponent := by omega
      have hhigh : -((n.fraction.getD []).length : ℤ) + n.parts.exponent ≤ 9999 := by omega
      rw [if_neg hnone]
      refine (place_eq hpos hlt hlow hhigh).trans ?_
      simp only [hpower, ← n.price_eq]

/-! ## The texts of the parser -/

/-- The length of a text in bytes of UTF-8. -/
def byteLength (text : List Char) : ℕ := (text.map Char.utf8Size).sum

theorem length_le_byteLength (text : List Char) : text.length ≤ byteLength text := by
  induction text with
  | nil => exact Nat.zero_le _
  | cons c text ih =>
    have hc : 0 < c.utf8Size := c.utf8Size_pos
    rw [byteLength, List.map_cons, List.sum_cons, List.length_cons]
    rw [byteLength] at ih
    omega

theorem length_trim_le (text : List Char) : (trim text).length ≤ text.length :=
  (List.rdropWhile_prefix _ _).length_le.trans (List.dropWhile_sublist _).length_le

namespace Numeral

theorem length_fraction_le (n : Numeral) : (n.fraction.getD []).length ≤ n.text.length := by
  rw [Numeral.text, Numeral.mantissa, List.length_append, List.length_append]
  cases n.fraction with
  | none => exact Nat.zero_le _
  | some f =>
    simp only [Option.getD_some, Option.elim_some, List.length_cons]
    omega

theorem length_fraction_le_byteLength {n : Numeral} {text : List Char} (h : trim text = n.text) :
    (n.fraction.getD []).length ≤ byteLength text :=
  calc (n.fraction.getD []).length ≤ n.text.length := n.length_fraction_le
    _ = (trim text).length := by rw [h]
    _ ≤ text.length := length_trim_le text
    _ ≤ byteLength text := length_le_byteLength text

theorem value_eq_zero_iff (n : Numeral) : n.value = 0 ↔ n.significant = 0 := by
  have hpower : (10 : ℚ) ^ n.power ≠ 0 := zpow_ne_zero _ (by norm_num)
  rw [Numeral.value, mul_eq_zero, or_iff_left hpower, Nat.cast_eq_zero,
    Radix.value_eq_zero_iff (by decide), Numeral.significant, List.length_eq_zero_iff]

/-- What is written beyond the reach of the point is worth nothing. -/
theorem price_eq_zero_of_power {n : Numeral} (hsignificant : n.significant ≤ 38)
    (hpower : n.power < -2 ^ 31) : n.price = 0 := by
  have hlt : Radix.value 10 n.digits < 10 ^ 38 :=
    (Radix.value_lt (by decide) n.digits_lt).trans_le
      (Nat.pow_le_pow_right (by decide) hsignificant)
  have hten : ((10 : ℕ) : ℚ) = 10 := by norm_num
  have hfloor := Radix.floor_mul_zpow_of_nonpos (K := ℚ) (b := 10) (k := n.power + 12)
    (Radix.value 10 n.digits) (by omega)
  rw [hten] at hfloor
  rw [n.price_eq, hfloor]
  have hdrop : 10 ^ 38 ≤ 10 ^ (-(n.power + 12)).toNat :=
    Nat.pow_le_pow_right (by decide) (by omega)
  exact Nat.div_eq_of_lt (hlt.trans_le hdrop)

end Numeral

theorem parse_numeral {text : List Char} {n : Numeral} (h : trim text = n.text) :
    parsePriceE12 build text = priceOf build text n.parts := by
  rw [parsePriceE12, readParts_eq_ok_iff.mpr ⟨n, h, rfl⟩]
  rfl

/-- What a numeral is parsed as. -/
theorem parse_eq {text : List Char} (hlength : byteLength text < 2 ^ 31) {n : Numeral}
    (h : trim text = n.text) :
    parsePriceE12 build text =
      if 38 < n.significant then .error (.refused (.overflow text))
      else if n.significant = 0 then .error (.refused (.zero text))
      else if n.power < -2 ^ 31 then outOfReach build text n.power
      else if n.price = 0 then .error (.refused (.zero text))
      else if h : n.price < 2 ^ 64 then .ok ⟨n.price, h⟩
      else .error (.refused (.overflow text)) :=
  (parse_numeral h).trans
    (priceOf_numeral text n ((Numeral.length_fraction_le_byteLength h).trans hlength.le))

/-- A text that is not refused for its form is a numeral. -/
theorem numeral_of_parse {text : List Char} {p : Panic}
    (h : parsePriceE12 build text = .error (.panic p)) : ∃ n : Numeral, trim text = n.text := by
  rw [parsePriceE12, bind_eq_error] at h
  rcases h with hread | ⟨parts, hread, -⟩
  · exact absurd hread (readParts_ne_panic text _)
  · obtain ⟨n, htrim, -⟩ := readParts_eq_ok_iff.mp hread
    exact ⟨n, htrim⟩

theorem parse_eq_ok_iff {text : List Char} (hlength : byteLength text < 2 ^ 31) {p : U64} :
    parsePriceE12 build text = .ok p ↔
      ∃ n : Numeral, trim text = n.text ∧ n.significant ≤ 38 ∧ 1 ≤ n.price ∧ n.price < 2 ^ 64 ∧
        p.val = n.price := by
  constructor
  · intro h
    have h' := h
    simp only [parsePriceE12, bind_eq_ok] at h'
    obtain ⟨parts, hread, -⟩ := h'
    obtain ⟨n, htrim, -⟩ := readParts_eq_ok_iff.mp hread
    rw [parse_eq hlength htrim] at h
    refine ⟨n, htrim, ?_⟩
    split_ifs at h with hmany hnone hfar hzero hfits
    · exact absurd h outOfReach_ne_ok
    · obtain rfl := Except.ok.inj h
      exact ⟨Nat.not_lt.mp hmany, Nat.pos_of_ne_zero hzero, hfits, rfl⟩
  · rintro ⟨n, htrim, hsignificant, hone, hfits, hp⟩
    have hnone : n.significant ≠ 0 := by
      intro hzero
      have hvalue := n.value_eq_zero_iff.mpr hzero
      rw [Numeral.price, hvalue, zero_mul, Nat.floor_zero] at hone
      exact absurd hone (by decide)
    have hnear : ¬ n.power < -2 ^ 31 := fun hfar =>
      Nat.ne_of_gt hone (Numeral.price_eq_zero_of_power hsignificant hfar)
    rw [parse_eq hlength htrim, if_neg (Nat.not_lt.mpr hsignificant), if_neg hnone,
      if_neg hnear, if_neg (Nat.ne_of_gt hone), dif_pos hfits]
    exact congrArg Except.ok (Fin.ext hp.symm)

theorem parse_checked_eq_panic_iff {text : List Char} (hlength : byteLength text < 2 ^ 31) :
    parsePriceE12 .checked text = .error (.panic .overflow) ↔
      ∃ n : Numeral, trim text = n.text ∧ n.significant ≤ 38 ∧ n.value ≠ 0 ∧
        n.power < -2 ^ 31 := by
  constructor
  · intro h
    obtain ⟨n, htrim⟩ := numeral_of_parse h
    rw [parse_eq hlength htrim] at h
    refine ⟨n, htrim, ?_⟩
    rw [Ne, n.value_eq_zero_iff]
    split_ifs at h <;> simp_all
  · rintro ⟨n, htrim, hsignificant, hvalue, hpower⟩
    rw [parse_eq hlength htrim, if_neg (Nat.not_lt.mpr hsignificant),
      if_neg (mt n.value_eq_zero_iff.mpr hvalue), if_pos hpower]
    rfl

/-- The release build does not end in a panic. -/
theorem parse_release_ne_panic {text : List Char} (hlength : byteLength text < 2 ^ 31)
    (p : Panic) : parsePriceE12 .release text ≠ .error (.panic p) := by
  intro h
  obtain ⟨n, htrim⟩ := numeral_of_parse h
  rw [parse_eq hlength htrim] at h
  unfold outOfReach at h
  split_ifs at h <;> cases h

end PriceText

open PriceText

/-- A one after a point and zeros, with the smallest exponent. -/
def distantNumeral (zeros : ℕ) : Numeral where
  integer := []
  fraction := some (List.replicate zeros '0' ++ ['1'])
  exponent := some ⟨'e', some '-', ['9', '9', '9', '9'], by simp, by simp, by simp, by simp,
    by simp⟩
  integer_isDigit := by simp
  fraction_isDigit := by
    rintro f hf c hc
    obtain rfl := Option.some.inj hf
    rcases List.mem_append.mp hc with hc | hc
    · rw [List.eq_of_mem_replicate hc]
      rfl
    · rw [List.mem_singleton.mp hc]
      rfl
  nonempty := by simp

theorem trim_distantNumeral (zeros : ℕ) :
    trim (distantNumeral zeros).text = (distantNumeral zeros).text := by
  have hend : (distantNumeral zeros).text =
      '.' :: (List.replicate zeros '0' ++ ['1', 'e', '-', '9', '9', '9']) ++ ['9'] := by
    simp [Numeral.text, Numeral.mantissa, distantNumeral, Exponent.text]
  rw [hend, trim, List.cons_append, List.dropWhile_cons_of_neg (by decide), ← List.cons_append,
    List.rdropWhile_concat_neg _ _ _ (by decide)]

theorem byteLength_distantNumeral (zeros : ℕ) :
    byteLength (distantNumeral zeros).text = zeros + 8 := by
  have hend : (distantNumeral zeros).text =
      List.replicate 1 '.' ++ List.replicate zeros '0' ++ ['1', 'e', '-', '9', '9', '9', '9'] := by
    simp [Numeral.text, Numeral.mantissa, distantNumeral, Exponent.text]
  have htail : byteLength ['1', 'e', '-', '9', '9', '9', '9'] = 7 := by decide
  have hascii (c : Char) (n : ℕ) : byteLength (List.replicate n c) = n * c.utf8Size := by
    simp [byteLength]
  have happend (l l' : List Char) : byteLength (l ++ l') = byteLength l + byteLength l' := by
    rw [byteLength, List.map_append, List.sum_append, byteLength, byteLength]
  have hpoint : '.'.utf8Size = 1 := by decide
  have hzero : '0'.utf8Size = 1 := by decide
  rw [hend, happend, happend, hascii, hascii, htail, hpoint, hzero]
  omega

theorem significant_distantNumeral (zeros : ℕ) : (distantNumeral zeros).significant = 1 := by
  have hdigits : (distantNumeral zeros).digits = List.replicate zeros 0 ++ [1] := by
    simp [Numeral.digits, distantNumeral, digitOf]
  rw [Numeral.significant, hdigits, Radix.significant_replicate_append]
  rfl

theorem power_distantNumeral (zeros : ℕ) :
    (distantNumeral zeros).power = -9999 - (zeros + 1) := by
  have hexponent : (distantNumeral zeros).exponent.elim 0 Exponent.value = -9999 := rfl
  have hfraction : ((distantNumeral zeros).fraction.getD []).length = zeros + 1 := by
    simp [distantNumeral]
  rw [Numeral.power, hexponent, hfraction]
  norm_num

end Service
