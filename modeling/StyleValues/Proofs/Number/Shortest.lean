import Mathlib
import StyleValues.Proofs.Number.Correct

/-! The shortest decimal of a double reads back to it, and so does any decimal of the same value. -/

namespace StyleValues.Number

theorem lt_pow_digitCount (n : Nat) : n < 10 ^ digitCount n :=
  (Nat.length_toDigits_le_iff (by decide) Nat.length_toDigits_pos).mp le_rfl

theorem pow_digitCount_le {n : Nat} (positive : 0 < n) : 10 ^ (digitCount n - 1) ≤ n := by
  by_contra small
  rw [not_le] at small
  have digits : 0 < digitCount n := Nat.length_toDigits_pos
  by_cases one : digitCount n = 1
  · rw [one] at small
    omega
  · have fewer := (Nat.length_toDigits_le_iff (by decide) (by omega)).mpr small
    unfold digitCount at *
    omega

namespace Decimal

theorem value_lt (d : Decimal) : d.value < 10 ^ (digitCount d.digits + d.exponent : Int) := by
  have digits : (d.digits : ℚ) < 10 ^ (digitCount d.digits : Int) := by
    exact_mod_cast lt_pow_digitCount d.digits
  rw [value, zpow_add₀ (by norm_num)]
  gcongr

theorem le_value {d : Decimal} (positive : 0 < d.digits) :
    10 ^ (digitCount d.digits + d.exponent - 1 : Int) ≤ d.value := by
  have count : 0 < digitCount d.digits := Nat.length_toDigits_pos
  have digits : (10 : ℚ) ^ (digitCount d.digits - 1 : Int) ≤ d.digits := by
    have := pow_digitCount_le positive
    rw [← Nat.cast_one, ← Nat.cast_sub count]
    exact_mod_cast this
  rw [value, add_sub_right_comm, zpow_add₀ (by norm_num)]
  gcongr

theorem value_withoutZero (d : Decimal) : d.withoutZero.value = d.value := by
  unfold withoutZero
  split
  · rename_i zero
    have divides : 10 ∣ d.digits := Nat.dvd_of_mod_eq_zero zero
    rw [value, value, zpow_add_one₀ (by norm_num), Nat.cast_div divides (by norm_num)]
    push_cast
    field_simp
  · rfl

end Decimal

theorem two_pow_le_ten_pow : (2 : ℚ) ^ (1024 : Int) ≤ 10 ^ (310 : Int) := by
  calc (2 : ℚ) ^ (1024 : Int) ≤ 2 ^ (1025 : Int) := by gcongr <;> norm_num
    _ = (2 ^ 205) ^ 5 := by rw [← pow_mul]; rfl
    _ ≤ (10 ^ 62) ^ 5 := by gcongr; norm_num
    _ = 10 ^ (310 : Int) := by rw [← pow_mul]; rfl

theorem ten_pow_le_two_pow : (10 : ℚ) ^ (-330 : Int) ≤ 2 ^ (-1075 : Int) := by
  have powers : (2 : ℚ) ^ (1075 : Int) ≤ 10 ^ (330 : Int) := by
    calc (2 : ℚ) ^ (1075 : Int) = (2 ^ 215) ^ 5 := by rw [← pow_mul]; rfl
      _ ≤ (10 ^ 66) ^ 5 := by gcongr; norm_num
      _ = 10 ^ (330 : Int) := by rw [← pow_mul]; rfl
  rw [zpow_neg, zpow_neg]
  exact inv_anti₀ (by positivity) powers

/-- A decimal is read as the double that it stands for. -/
theorem Decimal.rounded_toFloat (d : Decimal) (sign : Sign) :
    Rounded sign d.value (d.toFloat sign) := by
  have scalePos : (0 : ℚ) < tenTo (-d.exponent) := by exact_mod_cast tenTo_pos (-d.exponent)
  have nonneg : 0 ≤ d.value := by
    rw [value]
    positivity
  unfold toFloat
  dsimp only
  split
  · rename_i none
    refine rounded_zero nonneg ?_ sign
    rcases none with zero | small
    · rw [value, zero, Nat.cast_zero, zero_mul]
      positivity
    · have below : (10 : ℚ) ^ (digitCount d.digits + d.exponent : Int) ≤ 10 ^ (-330 : Int) :=
        zpow_le_zpow_right₀ (by norm_num) small.le
      exact (d.value_lt.le.trans below).trans ten_pow_le_two_pow
  rename_i some
  obtain ⟨digits, -⟩ := not_or.mp some
  have digitsPos : 0 < d.digits := Nat.pos_of_ne_zero digits
  split
  · rename_i large
    have above : (10 : ℚ) ^ (310 : Int) ≤ 10 ^ (digitCount d.digits + d.exponent - 1 : Int) :=
      zpow_le_zpow_right₀ (by norm_num) (by omega)
    refine rounded_infinity ?_ sign
    have bound : overflow ≤ 2 ^ (1024 : Int) := by
      have shift : (2 : ℚ) ^ (1024 : Int) = 2 ^ 53 * 2 ^ greatestExponent := by
        rw [← zpow_natCast, ← zpow_add₀ two_ne_zero]
        rfl
      rw [shift]
      exact mul_le_mul_of_nonneg_right (by norm_num) (by positivity)
    exact (bound.trans two_pow_le_ten_pow).trans (above.trans (le_value digitsPos))
  · have ratio : ((d.digits * tenTo d.exponent : Nat) : ℚ) / tenTo (-d.exponent) = d.value := by
      push_cast
      rw [tenTo_eq, value]
      field_simp
    rw [← ratio]
    exact rounded_nearest (Nat.mul_pos digitsPos (tenTo_pos _)) (tenTo_pos _) sign

namespace Interval

theorem contains_of_neighbour? {i : Interval} {tie : Tie} {exponent : Int} {d : Decimal}
    (found : i.neighbour? tie exponent = some d) : i.contains d := by
  unfold neighbour? at found
  dsimp only at found
  split at found
  next low high =>
    -- Of two decimals in the interval the remainder, or the tie, picks one.
    split at found
    · cases found
      exact low
    split at found
    · cases found
      exact high
    cases tie with
    | larger =>
      cases found
      exact high
    | even =>
      cases found
      split
      · exact low
      · exact high
  next low high =>
    cases found
    exact low
  next low high =>
    cases found
    exact high
  next => cases found

theorem value_exact (mantissa : Nat) (exponent : Int) :
    Decimal.value ⟨mantissa * twoTo exponent * tenTo (-exponent) / twoTo (-exponent),
      min exponent 0⟩ = mantissa * 2 ^ exponent := by
  obtain ⟨n, rfl | rfl⟩ := exponent.eq_nat_or_neg
  · have whole : tenTo (-n) = 1 := congrArg (Nat.pow 10) (Int.toNat_neg_natCast n)
    rw [twoTo_neg, whole, twoTo_natCast, Nat.mul_one, Nat.div_one, Decimal.value,
      min_eq_right (Int.natCast_nonneg n)]
    push_cast
    rw [mul_one, zpow_natCast]
  · have digits : mantissa * 1 * 10 ^ n / 2 ^ n = mantissa * 5 ^ n := by
      have tens : 10 ^ n = 5 ^ n * 2 ^ n := by rw [← Nat.mul_pow]
      rw [Nat.mul_one, tens, ← Nat.mul_assoc, Nat.mul_div_cancel _ (Nat.two_pow_pos n)]
    have tenPow : tenTo n = 10 ^ n := rfl
    rw [neg_neg, twoTo_neg, twoTo_natCast, tenPow, digits, Decimal.value, min_eq_left (by omega)]
    push_cast
    have tens : (10 : ℚ) ^ n = 5 ^ n * 2 ^ n := by
      rw [← mul_pow]
      norm_num
    rw [zpow_neg, zpow_natCast, zpow_neg, zpow_natCast, tens]
    field_simp

theorem holds_shortest (tie : Tie) {mantissa : Nat} (positive : 0 < mantissa) (exponent : Int) :
    (ofFinite mantissa exponent).Holds (shortest tie mantissa exponent).value := by
  unfold shortest
  dsimp only
  split
  next d found =>
    obtain ⟨n, _, found⟩ := List.exists_of_findSome?_eq_some found
    rw [Decimal.value_withoutZero]
    exact (contains_iff _ _).mp (contains_of_neighbour? found)
  next =>
    rw [value_exact]
    exact holds_self positive exponent

end Interval

theorem toFloat_of_value_eq_shortest {x : Float} {sign : Sign} {mantissa : Nat} {exponent : Int}
    {positive : 0 < mantissa} (finite : parts x = .finite sign mantissa exponent positive)
    {tie : Tie} {d : Decimal} (same : d.value = (shortest tie mantissa exponent).value) :
    d.toFloat sign = x := by
  have holds := Interval.holds_shortest tie positive exponent
  rw [← same] at holds
  exact (d.rounded_toFloat sign).unique
    (rounded_of_holds (canonical_of_parts finite) positive holds finite)

end StyleValues.Number
