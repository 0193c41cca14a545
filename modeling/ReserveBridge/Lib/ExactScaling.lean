-- SUMMARY: Conversions between units that scale the value exactly or fail: when they succeed, and that the conversion back is their inverse.
import Mathlib.Algebra.Field.Basic
import Mathlib.Algebra.Group.Units.Basic
import Mathlib.Tactic.FieldSimp

/-!
# Exact scaling

Two types of amounts with a value each, and a conversion that may fail. It scales
by a factor if it returns exactly the amounts whose value is the scaled one. Such a
conversion neither loses value nor refuses what the other unit can hold.
-/

namespace ExactScaling

variable {K α β γ ε ε' : Type*} [Field K] {value : α → K} {value' : β → K}

/-- `convert` returns an amount exactly where its value is the scaled one. -/
def Scales (value : α → K) (value' : β → K) (factor : K) (convert : α → Except ε β) : Prop :=
  ∀ a b, convert a = .ok b ↔ value' b = value a * factor

namespace Scales
variable {factor : K} {convert : α → Except ε β} {back : β → Except ε' α}

/-- It succeeds where the other unit holds the scaled value. -/
theorem succeeds_iff (h : Scales value value' factor convert) (a : α) :
    (∃ b, convert a = .ok b) ↔ ∃ b, value' b = value a * factor :=
  exists_congr (h a)

/-- The conversion back, by the inverse factor, returns the amount. -/
theorem round_trip (h : Scales value value' factor convert)
    (hback : Scales value' value factor⁻¹ back) (hfactor : factor ≠ 0) {a : α} {b : β}
    (hab : convert a = .ok b) : back b = .ok a := by
  have hvalue : value' b = value a * factor := (h a b).mp hab
  apply (hback b a).mpr
  rw [hvalue]
  field_simp

/-- One conversion after another scales by both factors. -/
theorem comp {value'' : γ → K} {factor' : K} {convert' : β → Except ε' γ}
    (h : Scales value value' factor convert) (h' : Scales value' value'' factor' convert') {a : α}
    {b : β} {c : γ} (hab : convert a = .ok b) (hbc : convert' b = .ok c) :
    value'' c = value a * (factor * factor') := by
  rw [(h' b c).mp hbc, (h a b).mp hab, mul_assoc]

end Scales

end ExactScaling
