import Depot.Proofs.Decimal.Order
import Mathlib.Algebra.Order.Field.Power
import Mathlib.Algebra.Order.Field.Rat
import Mathlib.Order.WithBot
/-!
# Values of decimal numbers

A `Decimal` is a spelling of a rational number, its value (`Decimal.value`), which several spellings
have in common. Comparing spellings is comparing values (`Decimal.lt_iff_value_lt`), although it
does not compute them. So the greater of two numbers has the greater of their values, and so do
maxima from which numbers may be missing (`Decimal.optionValue_maxOption`).
-/

namespace Depot.Decimal

/-- The number that is spelled. -/
def value (d : Decimal) : ℚ :=
  (if d.negative then -(d.coefficient : ℚ) else d.coefficient) * 10 ^ d.exponent

variable {a b : Decimal} {e : Int}

theorem value_eq_scaled (he : e ≤ a.exponent) : a.value = a.scaled e * 10 ^ e := by
  have hten : (10 : ℚ) ≠ 0 := by norm_num
  have hpower : (10 : ℚ) ^ a.exponent = 10 ^ (a.exponent - e).toNat * 10 ^ e := by
    rw [← zpow_natCast, Int.toNat_of_nonneg (Int.sub_nonneg_of_le he), ← zpow_add₀ hten,
      Int.sub_add_cancel]
  unfold value scaled magnitude
  rw [hpower, ← mul_assoc]
  split <;> simp

/-- **Comparing spellings is comparing values.** -/
theorem lt_iff_value_lt : lt a b = true ↔ a.value < b.value := by
  obtain ⟨e, ha, hb, -⟩ := exists_common_exponent a b b
  have hpos : (0 : ℚ) < 10 ^ e := zpow_pos (by norm_num) e
  rw [lt_iff_scaled_lt ha hb, value_eq_scaled ha, value_eq_scaled hb, mul_lt_mul_iff_left₀ hpos,
    Int.cast_lt]

theorem value_max (a b : Decimal) : (max a b).value = a.value ⊔ b.value := by
  unfold max
  split
  · next h => rw [sup_eq_right.2 (lt_iff_value_lt.1 h).le]
  · next h => rw [sup_eq_left.2 (not_lt.1 fun hlt => h (lt_iff_value_lt.2 hlt))]

/-- The value of a number that may be missing, which comes before all values. -/
def optionValue : Option Decimal → WithBot ℚ
  | none => ⊥
  | some d => d.value

theorem optionValue_maxOption (current : Option Decimal) (d : Decimal) :
    optionValue (maxOption current d) = optionValue current ⊔ d.value := by
  cases current with
  | none => exact (bot_sup_eq _).symm
  | some c =>
    show ((max c d).value : WithBot ℚ) = _
    rw [value_max]
    exact WithBot.coe_sup _ _

/-- Two numbers that may be missing have one value if both are missing, or spell the same number. -/
theorem optionValue_eq_iff {x y : Option Decimal} :
    optionValue x = optionValue y ↔ x.map value = y.map value := by
  cases x <;> cases y <;> simp [optionValue]

end Depot.Decimal
