import Mathlib
import StyleValues.Number.Decimal
import StyleValues.Proofs.Number.Canonical

/-! Rounding of scaled fractions to whole numbers, and the power of two by which they are scaled. -/

namespace StyleValues.Number

theorem pow_toNat_eq {base : Nat} (positive : 0 < base) (exponent : Int) :
    ((base ^ exponent.toNat : Nat) : ℚ) =
      (base : ℚ) ^ exponent * (base ^ (-exponent).toNat : Nat) := by
  have nonzero : (base : ℚ) ≠ 0 := by exact_mod_cast positive.ne'
  obtain ⟨n, rfl | rfl⟩ := exponent.eq_nat_or_neg
  · rw [Int.toNat_natCast, Int.toNat_neg_natCast, zpow_natCast]
    push_cast
    ring
  · rw [neg_neg, Int.toNat_natCast, Int.toNat_neg_natCast, zpow_neg, zpow_natCast]
    push_cast
    field_simp

theorem twoTo_eq (exponent : Int) : (twoTo exponent : ℚ) = 2 ^ exponent * twoTo (-exponent) :=
  pow_toNat_eq Nat.two_pos exponent

theorem tenTo_eq (exponent : Int) : (tenTo exponent : ℚ) = 10 ^ exponent * tenTo (-exponent) :=
  pow_toNat_eq (by decide : 0 < 10) exponent

theorem twoTo_pos (exponent : Int) : 0 < twoTo exponent :=
  Nat.pow_pos Nat.two_pos

theorem tenTo_pos (exponent : Int) : 0 < tenTo exponent :=
  Nat.pow_pos (by decide)

theorem log_eq_of_between {base : Nat} (large : 1 < base) {q : ℚ} {k : Int}
    (low : (base : ℚ) ^ k ≤ q) (high : q < (base : ℚ) ^ (k + 1)) : Int.log base q = k := by
  have positive : 0 < q := lt_of_lt_of_le (zpow_pos (by positivity) k) low
  have := (Int.zpow_le_iff_le_log large positive).mp low
  have := (Int.lt_zpow_iff_log_lt large positive).mp high
  omega

/-- The whole number is the nearest one, or one of two, and even. -/
def RoundsTo (r : ℚ) (n : Nat) : Prop :=
  |r - n| < 1 / 2 ∨ |r - n| = 1 / 2 ∧ n % 2 = 0

theorem RoundsTo.le {r : ℚ} {n : Nat} (rounds : RoundsTo r n) : |r - n| ≤ 1 / 2 := by
  rcases rounds with near | ⟨tie, -⟩
  · exact near.le
  · exact tie.le

theorem roundsTo_low (low : Nat) {rest : ℚ} (nonneg : 0 ≤ rest) (less : rest < 1 / 2) :
    RoundsTo (low + rest) low := by
  left
  rwa [add_sub_cancel_left, abs_of_nonneg nonneg]

theorem roundsTo_high (low : Nat) {rest : ℚ} (more : 1 / 2 < rest) (small : rest < 1) :
    RoundsTo (low + rest) (low + 1) := by
  left
  push_cast
  rw [add_sub_add_left_eq_sub, abs_sub_comm, abs_of_pos] <;> linarith

theorem roundsTo_half (low : Nat) : RoundsTo (low + 1 / 2) (low + low % 2) := by
  right
  refine ⟨?_, by omega⟩
  push_cast
  rw [add_sub_add_left_eq_sub]
  rcases Nat.mod_two_eq_zero_or_one low with even | odd
  · rw [even]
    norm_num
  · rw [odd]
    norm_num

theorem roundsTo_roundHalfEven (num : Nat) {den : Nat} (denPos : 0 < den) :
    RoundsTo ((num : ℚ) / den) (roundHalfEven num den) := by
  have denPosRat : (0 : ℚ) < den := by exact_mod_cast denPos
  have whole : (num : ℚ) = den * (num / den : Nat) + (num % den : Nat) := by
    exact_mod_cast (Nat.div_add_mod num den).symm
  have restLt : num % den < den := Nat.mod_lt num denPos
  unfold roundHalfEven
  dsimp only
  generalize num / den = low at *
  generalize num % den = rest at *
  have parts : (num : ℚ) / den = low + rest / den := by
    rw [whole]
    field_simp
  rw [parts]
  rcases lt_trichotomy (2 * rest) den with less | half | more
  · have lessRat : (rest : ℚ) / den < 1 / 2 := by
      rw [div_lt_div_iff₀ denPosRat two_pos, one_mul, mul_comm]
      exact_mod_cast less
    rw [if_pos less]
    exact roundsTo_low low (by positivity) lessRat
  · have halfRat : (rest : ℚ) / den = 1 / 2 := by
      rw [div_eq_div_iff denPosRat.ne' two_ne_zero, one_mul, mul_comm]
      exact_mod_cast half
    rw [if_neg half.not_lt, if_neg half.not_gt, halfRat]
    exact roundsTo_half low
  · have moreRat : 1 / 2 < (rest : ℚ) / den := by
      rw [div_lt_div_iff₀ two_pos denPosRat, one_mul, mul_comm]
      exact_mod_cast more
    have small : (rest : ℚ) / den < 1 := by
      rw [div_lt_one denPosRat]
      exact_mod_cast restLt
    rw [if_neg more.not_gt, if_pos more]
    exact roundsTo_high low moreRat small

section Fraction

variable {num den : Nat}

theorem scaled_lt_iff (denPos : 0 < den) (k : Int) :
    num * twoTo (-k) < den * twoTo k ↔ (num : ℚ) / den < 2 ^ k := by
  have denPos : (0 : ℚ) < den := by exact_mod_cast denPos
  have scalePos : (0 : ℚ) < twoTo (-k) := by exact_mod_cast twoTo_pos (-k)
  rw [div_lt_iff₀ denPos, ← mul_lt_mul_iff_left₀ scalePos, mul_right_comm, ← twoTo_eq,
    mul_comm (twoTo k : ℚ)]
  exact_mod_cast Iff.rfl

theorem binaryExponent_eq_log (numPos : 0 < num) (denPos : 0 < den) :
    binaryExponent num den = Int.log 2 ((num : ℚ) / den) := by
  have denPosRat : (0 : ℚ) < den := by exact_mod_cast denPos
  have numLow : (2 : ℚ) ^ (num.log2 : Int) ≤ num := by
    exact_mod_cast Nat.log2_self_le numPos.ne'
  have numHigh : (num : ℚ) < 2 ^ ((num.log2 : Int) + 1) := by
    exact_mod_cast Nat.lt_log2_self
  have denLow : (2 : ℚ) ^ (den.log2 : Int) ≤ den := by
    exact_mod_cast Nat.log2_self_le denPos.ne'
  have denHigh : (den : ℚ) < 2 ^ ((den.log2 : Int) + 1) := by
    exact_mod_cast Nat.lt_log2_self
  have low : (2 : ℚ) ^ ((num.log2 : Int) - den.log2 - 1) ≤ num / den := by
    rw [le_div_iff₀ denPosRat]
    calc (2 : ℚ) ^ ((num.log2 : Int) - den.log2 - 1) * den
        ≤ 2 ^ ((num.log2 : Int) - den.log2 - 1) * 2 ^ ((den.log2 : Int) + 1) := by gcongr
      _ = 2 ^ (num.log2 : Int) := by
        rw [← zpow_add₀ two_ne_zero]
        congr 1
        omega
      _ ≤ num := numLow
  have high : (num : ℚ) / den < 2 ^ ((num.log2 : Int) - den.log2 + 1) := by
    rw [div_lt_iff₀ denPosRat]
    calc (num : ℚ) < 2 ^ ((num.log2 : Int) + 1) := numHigh
      _ = 2 ^ ((num.log2 : Int) - den.log2 + 1) * 2 ^ (den.log2 : Int) := by
        rw [← zpow_add₀ two_ne_zero]
        congr 1
        omega
      _ ≤ 2 ^ ((num.log2 : Int) - den.log2 + 1) * den := by gcongr
  unfold binaryExponent
  dsimp only
  symm
  split
  · rename_i below
    refine log_eq_of_between Nat.one_lt_two low ?_
    rw [sub_add_cancel]
    exact (scaled_lt_iff denPos _).mp below
  · rename_i notBelow
    refine log_eq_of_between Nat.one_lt_two ?_ high
    exact le_of_not_gt (mt (scaled_lt_iff denPos _).mpr notBelow)

theorem roundsTo_scaled (num : Nat) (denPos : 0 < den) (exponent : Int) :
    RoundsTo (num / den / 2 ^ exponent)
      (roundHalfEven (num * twoTo (-exponent)) (den * twoTo exponent)) := by
  have denPosRat : (0 : ℚ) < den := by exact_mod_cast denPos
  have scalePos : (0 : ℚ) < twoTo (-exponent) := by exact_mod_cast twoTo_pos (-exponent)
  have ratio : ((num * twoTo (-exponent) : Nat) : ℚ) / (den * twoTo exponent : Nat) =
      num / den / 2 ^ exponent := by
    push_cast
    rw [twoTo_eq exponent]
    field_simp
  rw [← ratio]
  exact roundsTo_roundHalfEven (num * twoTo (-exponent)) (Nat.mul_pos denPos (twoTo_pos exponent))

end Fraction

end StyleValues.Number
