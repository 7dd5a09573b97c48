import Mathlib
import StyleValues.Proofs.Number.Rounding

/-! The interval of a double: what lies half way to its neighbours at most. -/

namespace StyleValues.Number

def Decimal.value (d : Decimal) : ℚ := d.digits * 10 ^ d.exponent

namespace Interval

/-- The fraction lies in the interval. The ends count if it is closed. -/
def Holds (i : Interval) (q : ℚ) : Prop :=
  if i.closed then i.lower ≤ q * i.unit ∧ q * i.unit ≤ i.upper
  else i.lower < q * i.unit ∧ q * i.unit < i.upper

theorem contains_iff (i : Interval) (d : Decimal) : i.contains d ↔ i.Holds d.value := by
  have scalePos : (0 : ℚ) < tenTo (-d.exponent) := by exact_mod_cast tenTo_pos (-d.exponent)
  have point : ((d.digits * tenTo d.exponent * i.unit : Nat) : ℚ) =
      d.value * i.unit * tenTo (-d.exponent) := by
    push_cast
    rw [tenTo_eq, Decimal.value]
    ring
  have le_point (bound : Nat) : bound * tenTo (-d.exponent) ≤ d.digits * tenTo d.exponent * i.unit ↔
      (bound : ℚ) ≤ d.value * i.unit := by
    rw [← mul_le_mul_iff_left₀ scalePos, ← point]
    exact_mod_cast Iff.rfl
  have point_le (bound : Nat) : d.digits * tenTo d.exponent * i.unit ≤ bound * tenTo (-d.exponent) ↔
      d.value * i.unit ≤ (bound : ℚ) := by
    rw [← mul_le_mul_iff_left₀ scalePos, ← point]
    exact_mod_cast Iff.rfl
  unfold contains Holds
  dsimp only
  cases i.closed with
  | true => simp only [if_true, Bool.and_eq_true, decide_eq_true_eq, le_point, point_le]
  | false =>
    simp only [Bool.false_eq_true, if_false, Bool.and_eq_true, decide_eq_true_eq, ← not_le,
      le_point, point_le]

/-- How far the interval of `mantissa · 2 ^ exponent` goes down, in quarters of the last place. -/
def quartersBelow (mantissa : Nat) (exponent : Int) : Nat :=
  if mantissa = twoTo 52 ∧ leastExponent < exponent then 1 else 2

theorem holds_ofFinite_iff {mantissa : Nat} (positive : 0 < mantissa) (exponent : Int) (q : ℚ) :
    (ofFinite mantissa exponent).Holds q ↔
      if mantissa % 2 = 0 then
        mantissa - quartersBelow mantissa exponent / 4 ≤ q / 2 ^ exponent ∧
          q / 2 ^ exponent ≤ mantissa + 1 / 2
      else
        mantissa - quartersBelow mantissa exponent / 4 < q / 2 ^ exponent ∧
          q / 2 ^ exponent < mantissa + 1 / 2 := by
  have scalePos : (0 : ℚ) < twoTo (exponent - 2) := by exact_mod_cast twoTo_pos (exponent - 2)
  have unit : q * twoTo (2 - exponent) = 4 * (q / 2 ^ exponent) * twoTo (exponent - 2) := by
    rw [twoTo_eq (exponent - 2), neg_sub, zpow_sub₀ two_ne_zero]
    field_simp
    norm_num
  have below : quartersBelow mantissa exponent ≤ 4 * mantissa := by
    unfold quartersBelow
    split <;> omega
  have lower : ((ofFinite mantissa exponent).lower : ℚ) =
      4 * (mantissa - quartersBelow mantissa exponent / 4) * twoTo (exponent - 2) := by
    change (((4 * mantissa - quartersBelow mantissa exponent) * twoTo (exponent - 2) : Nat) : ℚ) = _
    rw [Nat.cast_mul, Nat.cast_sub below]
    push_cast
    ring
  have upper : ((ofFinite mantissa exponent).upper : ℚ) =
      4 * (mantissa + 1 / 2) * twoTo (exponent - 2) := by
    change (((4 * mantissa + 2) * twoTo (exponent - 2) : Nat) : ℚ) = _
    push_cast
    ring
  have closed : (ofFinite mantissa exponent).closed = decide (mantissa % 2 = 0) := rfl
  have unitEq : (ofFinite mantissa exponent).unit = twoTo (2 - exponent) := rfl
  unfold Holds
  rw [lower, upper, closed, unitEq, unit]
  simp only [mul_le_mul_iff_left₀ scalePos, mul_lt_mul_iff_left₀ scalePos, decide_eq_true_eq,
    mul_le_mul_iff_right₀ (zero_lt_four' ℚ), mul_lt_mul_iff_right₀ (zero_lt_four' ℚ)]

theorem quartersBelow_bounds (mantissa : Nat) (exponent : Int) :
    (0 : ℚ) < quartersBelow mantissa exponent ∧ (quartersBelow mantissa exponent : ℚ) ≤ 2 := by
  unfold quartersBelow
  split <;> norm_num

theorem holds_self {mantissa : Nat} (positive : 0 < mantissa) (exponent : Int) :
    (ofFinite mantissa exponent).Holds (mantissa * 2 ^ exponent) := by
  have := (quartersBelow_bounds mantissa exponent).1
  have exact : (mantissa : ℚ) * 2 ^ exponent / 2 ^ exponent = mantissa :=
    mul_div_cancel_right₀ _ (zpow_ne_zero exponent two_ne_zero)
  rw [holds_ofFinite_iff positive, exact]
  split <;> constructor <;> linarith

end Interval

end StyleValues.Number
